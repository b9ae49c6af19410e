import RequestLog.Proofs.Json.Stream
import RequestLog.Proofs.Json.Value
import RequestLog.Store.Row

/-!
# Rows from a body

A body of objects is read as one row for each of them, in which every declared column has
what it reads from the object and nothing else is. Where a column of an object cannot be
read there are no rows at all, and the error is that of the first column of the first object
for which it is so. A body that ends inside of an object has no rows either, and neither has
one that goes on with anything but an object.
-/

namespace RequestLog.Store

open Json (Blanks Enclosed Inside NoObject Stream encoded kept keptMembers last? tokensOfBytes)

/-- What a column reads from the members of an object: the last of its key counts. -/
def ResultColumn.readFrom (c : ResultColumn) (members : List (String × Json)) :
    Except DecodeError Json :=
  c.read ((last? c.name members).map kept)

/-- The row of an object: the columns in their order, each with what it reads. -/
def IsRow (columns : List ResultColumn) (members : List (String × Json)) (row : Row) : Prop :=
  List.Forall₂ (fun c cell => cell.1 = c.name ∧ c.readFrom members = .ok cell.2) columns row

/-! ## One row -/

theorem put_fresh {key : String} {v : Json} {row : Row} (h : key ∉ row.map (·.1)) :
    Json.put key v row = row ++ [(key, v)] := by
  have hnone : ¬row.any (·.1 == key) = true := by
    rw [List.any_eq_true]
    rintro ⟨m, hm, hkey⟩
    exact h (List.mem_map.2 ⟨m, hm, eq_of_beq hkey⟩)
  exact if_neg hnone

section

variable {ε : Type} (read : ResultColumn → Except ε Json)

/-- A cell with the name of its column. -/
def cellOf (c : ResultColumn) : Except ε (String × Json) := (read c).map (c.name, ·)

theorem foldlM_cells {columns : List ResultColumn} (h : (columns.map (·.name)).Nodup) {row : Row}
    (hrow : ∀ c ∈ columns, c.name ∉ row.map (·.1)) :
    columns.foldlM (fun row c => (read c).map fun v => Json.put c.name v row) row =
      (columns.mapM (cellOf read)).map (row ++ ·) := by
  induction columns generalizing row with
  | nil => exact congrArg Except.ok (List.append_nil row).symm
  | cons c rest ih =>
      obtain ⟨hname, hnames⟩ := List.nodup_cons.1 h
      obtain ⟨hc, hrest⟩ := List.forall_mem_cons.1 hrow
      rw [List.foldlM_cons, List.mapM_cons, cellOf]
      cases read c with
      | error e => rfl
      | ok v =>
          have hnext : ∀ d ∈ rest, d.name ∉ (row ++ [(c.name, v)]).map (·.1) := by
            intro d hd
            rw [List.map_append, List.mem_append, not_or, List.map_singleton, List.mem_singleton]
            exact ⟨hrest d hd, fun heq => hname (List.mem_map.2 ⟨d, hd, heq⟩)⟩
          have hcells := ih hnames hnext
          simp only [Except.map, bind, Except.bind] at hcells ⊢
          rw [put_fresh hc, hcells]
          cases rest.mapM (cellOf read) with
          | error e => rfl
          | ok cells =>
              simp only [pure, Except.pure, List.append_assoc, List.singleton_append]

/-- Where no name is used twice, no cell replaces another. -/
theorem readColumns_eq_mapM {columns : List ResultColumn} (h : (columns.map (·.name)).Nodup) :
    readColumns read columns = columns.mapM (cellOf read) := by
  rw [readColumns, foldlM_cells read h fun _ _ => List.not_mem_nil]
  cases columns.mapM (cellOf read) <;> rfl

end

section

variable {columns : List ResultColumn} {members : List (String × Json)}

theorem cellOf_ok_iff {ε : Type} {read : ResultColumn → Except ε Json} {c : ResultColumn}
    {cell : String × Json} :
    cellOf read c = .ok cell ↔ cell.1 = c.name ∧ read c = .ok cell.2 := by
  rw [cellOf]
  constructor
  · intro h
    obtain ⟨v, hv, rfl⟩ := ok_of_map h
    exact ⟨rfl, hv⟩
  · rintro ⟨hname, hread⟩
    rw [hread, ← hname]
    rfl

/-- The object that was read from its own tree. -/
theorem rowOf_tree (hnames : (columns.map (·.name)).Nodup)
    (hdepth : (Json.object members).depth ≤ Json.nestingRoom) :
    rowOf columns (Json.object members).tree =
      columns.mapM (cellOf fun c => c.readFrom members) := by
  have hread : (fun c : ResultColumn => c.read (Json.get? c.name (keptMembers [] members))) =
      fun c => c.readFrom members := by
    funext c
    rw [Json.get?_keptMembers, ResultColumn.readFrom]
    exact congrArg c.read Option.or_none
  rw [rowOf, Json.decodeObject_tree hdepth]
  simp only [readRow]
  rw [readColumns_eq_mapM _ hnames, hread]

/-- Nothing but an object has a row. -/
theorem object_of_rowOf {t : Json.Tree} {row : Row} (h : rowOf columns t = .ok row) :
    ∃ members, t = (Json.object members).tree := by
  unfold rowOf at h
  split at h
  · cases h
  · next values hvalues => exact Json.object_of_decodeObject hvalues

theorem cells_eq_ok_iff {row : Row} :
    columns.mapM (cellOf fun c => c.readFrom members) = .ok row ↔ IsRow columns members row := by
  constructor
  · intro h
    exact (forall₂_of_mapM h).imp fun _ _ hcell => cellOf_ok_iff.1 hcell
  · intro h
    exact mapM_of_forall₂ (List.Forall₂.imp (fun _ _ hcell => cellOf_ok_iff.2 hcell) h)

/-- The error of an object is that of its first bad column. -/
theorem cells_eq_error_iff {e : DecodeError} :
    columns.mapM (cellOf fun c => c.readFrom members) = .error e ↔
      ∃ before c after, columns = before ++ c :: after ∧
        (∀ d ∈ before, ∃ v, d.readFrom members = .ok v) ∧ c.readFrom members = .error e := by
  simp only [mapM_error_iff, cellOf, exists_ok_map_iff, map_error_iff]

end

/-! ## All rows -/

section

variable {columns : List ResultColumn} {objects : List (List (String × Json))} {cs : List Char}

/-- The trees of a stream, and those of what stands behind it. -/
theorem readRowBytes_append (h : Stream objects cs) (bytes : List UInt8) :
    readRowBytes columns (encoded cs ++ bytes) =
      ((objects.map fun members => (Json.object members).tree) ++
        Json.forest (tokensOfBytes bytes)).mapM (rowOf columns) := by
  rw [readRowBytes, tokensOfBytes, Json.characters_encoded]
  dsimp only
  rw [h.forest_append (Json.characters_bad_le bytes)]
  rfl

theorem readRowBytes_encoded (hnames : (columns.map (·.name)).Nodup) (h : Stream objects cs)
    (hdepth : ∀ members ∈ objects, (Json.object members).depth ≤ Json.nestingRoom) :
    readRowBytes columns (encoded cs) =
      objects.mapM fun members => columns.mapM (cellOf fun c => c.readFrom members) := by
  have hnone : Json.forest (tokensOfBytes []) = [] := by
    rw [tokensOfBytes, Json.characters_nil, Json.tokensUntil_nil, Json.forest]
  have hbytes := @readRowBytes_append columns objects cs h []
  rw [hnone, List.append_nil, List.append_nil, List.mapM_map] at hbytes
  rw [hbytes]
  exact mapM_congr fun members hmem => rowOf_tree hnames (hdepth members hmem)

/-- What goes on with something else than an object has no rows. -/
theorem readRowBytes_noObject (h : Stream objects cs) {bytes : List UInt8}
    (hbytes : NoObject (tokensOfBytes bytes)) :
    ∃ e, readRowBytes columns (encoded cs ++ bytes) = .error e := by
  obtain ⟨t, rest, hforest, ht⟩ := hbytes.forest
  rw [readRowBytes_append h, hforest]
  cases hrows : (_ ++ t :: rest).mapM (rowOf columns) with
  | error e => exact ⟨e, rfl⟩
  | ok rows =>
      obtain ⟨row, hrow⟩ := exists_ok_mapM_iff.1 ⟨rows, hrows⟩ t
        (List.mem_append_right _ List.mem_cons_self)
      obtain ⟨members, hmembers⟩ := object_of_rowOf hrow
      exact absurd hmembers (ht members)

/-- A stream that is cut inside of an object has no rows. -/
theorem readRowBytes_inside {i : Nat} (h : Inside cs i) :
    ∃ e, readRowBytes columns ((encoded cs).take i) = .error e := by
  obtain @⟨before, after, members, pre, object, post, i, hpre, hobject, -, hlow, hhigh⟩ := h
  obtain ⟨k, rfl⟩ := Nat.exists_eq_add_of_lt hlow
  rw [Json.encoded_append, List.length_append] at hhigh
  have htake : (encoded (pre ++ (object ++ post))).take ((encoded pre).length + k + 1) =
      encoded pre ++ (encoded object).take (k + 1) := by
    rw [Json.encoded_append, Json.encoded_append, Nat.add_assoc, List.take_length_add_append,
      List.take_append_of_le_length (by omega)]
  rw [htake]
  exact readRowBytes_noObject hpre (hobject.noObject_take (Nat.succ_pos k) (by omega))

/-- What is left of a body that is cut somewhere has no rows, or those of its first objects. -/
theorem readRowBytes_take (hnames : (columns.map (·.name)).Nodup) (h : Stream objects cs)
    (hdepth : ∀ members ∈ objects, (Json.object members).depth ≤ Json.nestingRoom) {i : Nat}
    (hi : i ≤ (encoded cs).length) :
    (∃ e, readRowBytes columns ((encoded cs).take i) = .error e) ∨
      ∃ n, readRowBytes columns ((encoded cs).take i) =
        (objects.take n).mapM fun members => columns.mapM (cellOf fun c => c.readFrom members) := by
  obtain hinside | ⟨n, front, hfront, htake⟩ := h.take_or_inside hi
  · exact .inl (readRowBytes_inside hinside)
  · rw [htake]
    exact .inr ⟨n, readRowBytes_encoded hnames hfront
      fun members hmem => hdepth members (List.mem_of_mem_take hmem)⟩

/--
The objects of a body are read completely or not at all. If every column can be read from
every object, there is one row for each object, in their order. Otherwise the error is that
of the first bad column of the first bad object. A body that is cut inside of an object has
no rows, and no more has one that goes on with another byte than the one of a bracket.
-/
theorem readRowBytes_stream (hnames : (columns.map (·.name)).Nodup) (h : Stream objects cs)
    (hdepth : ∀ members ∈ objects, (Json.object members).depth ≤ Json.nestingRoom) :
    ((∃ rows, readRowBytes columns (encoded cs) = .ok rows) ↔
      ∀ members ∈ objects, ∀ c ∈ columns, ∃ v, c.readFrom members = .ok v) ∧
    (∀ rows, readRowBytes columns (encoded cs) = .ok rows ↔
      List.Forall₂ (IsRow columns) objects rows) ∧
    (∀ e, readRowBytes columns (encoded cs) = .error e ↔
      ∃ before members after, objects = before ++ members :: after ∧
        (∀ m ∈ before, ∀ c ∈ columns, ∃ v, c.readFrom m = .ok v) ∧
        ∃ good c more, columns = good ++ c :: more ∧
          (∀ d ∈ good, ∃ v, d.readFrom members = .ok v) ∧ c.readFrom members = .error e) ∧
    (∀ i, Inside cs i → ∃ e, readRowBytes columns ((encoded cs).take i) = .error e) ∧
    ∀ (gap : List Char) (b : UInt8) (rest : List UInt8), Blanks gap → b ≠ 0x7b →
      b ∉ [0x20, 0x0a, 0x09, 0x0d] →
      ∃ e, readRowBytes columns (encoded cs ++ (encoded gap ++ b :: rest)) = .error e := by
  have hread := readRowBytes_encoded hnames h hdepth
  refine ⟨?_, fun rows => ?_, fun e => ?_, fun i hi => readRowBytes_inside hi,
    fun gap b rest hgap hb hspace =>
      readRowBytes_noObject h (Json.noObject_of_byte hgap hspace hb rest)⟩
  · rw [hread, exists_ok_mapM_iff]
    simp only [exists_ok_mapM_iff, cellOf, exists_ok_map_iff]
  · rw [hread]
    constructor
    · intro hrows
      exact (forall₂_of_mapM hrows).imp fun _ _ hrow => cells_eq_ok_iff.1 hrow
    · intro hrows
      exact mapM_of_forall₂ (hrows.imp fun _ _ hrow => cells_eq_ok_iff.2 hrow)
  · rw [hread, mapM_error_iff]
    simp only [exists_ok_mapM_iff, cellOf, exists_ok_map_iff, cells_eq_error_iff]

/-- Two objects, of which one has its number as a text, and what is left of them when the
second is cut. -/
theorem readRowBytes_two :
    let columns : List ResultColumn := [⟨"n", .int, false⟩]
    let body := encoded "\x7b\"n\":\"3\"\x7d\n\x7b\"n\":4\x7d".toList
    readRowBytes columns body = .ok [[("n", .number (.int 3))], [("n", .number (.int 4))]] ∧
      ∃ e, readRowBytes columns (body.take 15) = .error e := by
  intro columns body
  have hkey := @Json.Word.text "n" ['n'] (.plain rfl .nil)
  have htext := @Json.Word.text "3" ['3'] (.plain rfl .nil)
  have hfirst := @Json.enclosed_single "n" (.text "3") _ _ _ hkey rfl htext
  have hnumber : Json.Word (.number (.ok (.int 4))) ['4'] := Json.word_int rfl
  have hsecond := @Json.enclosed_single "n" (.number (.int 4)) _ _ _ hkey rfl hnumber
  have hgap : Blanks ['\n'] := by decide
  have hnone : Stream [] [] := .nil (List.forall_mem_nil _)
  have hbefore := Stream.cons (List.forall_mem_nil _) hfirst (.nil hgap)
  have hstream := Stream.cons (List.forall_mem_nil _) hfirst (.cons hgap hsecond hnone)
  obtain ⟨-, hrows, -, hcut, -⟩ := @readRowBytes_stream columns _ _ (by decide) hstream (by decide)
  constructor
  · exact (hrows _).2 (.cons (.cons ⟨rfl, rfl⟩ .nil) (.cons (.cons ⟨rfl, rfl⟩ .nil) .nil))
  · have hinside : Inside (_ ++ (_ ++ [])) 15 :=
      .mk hbefore hsecond hnone (by decide) (by decide)
    exact hcut 15 hinside

end

end RequestLog.Store
