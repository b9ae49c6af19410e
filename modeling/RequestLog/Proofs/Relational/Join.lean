import Mathlib.Data.List.Perm.Basic
import RequestLog.Proofs.Relational.Admitted
import RequestLog.Proofs.Relational.Engine
import RequestLog.Relational.Select

/-!
# What a join looks at

A record is joined with the rows of a table that agree with it in one column, and with
nothing else of that table (`partners_eq`). So a table may lose any rows that the record
has no use for (`joined_keepRows`), and the order of its rows shows in the order of the
joined records only (`Alike.records`).
-/

namespace RequestLog.Relational

open Sql Schema

/-! ## Columns of a record -/

instance : LawfulBEq ColumnRef where
  eq_of_beq {a b} h := by
    have hboth : (a.table == b.table && a.column == b.column) = true := h
    rw [Bool.and_eq_true, beq_iff_eq, beq_iff_eq] at hboth
    obtain ⟨table, column⟩ := a
    obtain ⟨rfl, rfl⟩ := hboth
    rfl
  rfl {a} := by
    change (a.table == a.table && a.column == a.column) = true
    rw [beq_self_eq_true, beq_self_eq_true]
    rfl

section

variable {r s : Record} {c : ColumnRef} {name : String}

theorem valueIn_of_lookup {v : Value} (h : r.lookup c = some v) : valueIn r c = v := by
  rw [valueIn, h]
  rfl

theorem valueIn_append_left (h : (r.lookup c).isSome) :
    valueIn (r ++ s) c = valueIn r c := by
  obtain ⟨v, hv⟩ := Option.isSome_iff_exists.1 h
  rw [valueIn, valueIn, List.lookup_append, hv]
  rfl

/-- A record that has no column of a table. -/
def Apart (name : String) (r : Record) : Prop := ∀ x ∈ r, x.1.table ≠ name

theorem Apart.append (hr : Apart name r) (hs : Apart name s) : Apart name (r ++ s) :=
  List.forall_mem_append.2 ⟨hr, hs⟩

theorem lookup_append_right (h : Apart c.table r) : (r ++ s).lookup c = s.lookup c := by
  have hnone : r.lookup c = none := by
    rw [List.lookup_eq_none_iff]
    intro x hx
    rw [bne_iff_ne]
    rintro rfl
    exact h x hx rfl
  rw [List.lookup_append, hnone, Option.none_or]

end

namespace Table

variable {t : Table} {row : List Value} {column : String}

def record (t : Table) (row : List Value) : Record := t.refs.zip row

theorem apart_record {name : String} (h : t.definition.name ≠ name) :
    Apart name (t.record row) := by
  intro x hx
  obtain ⟨c, -, hc⟩ := List.mem_map.1 (List.of_mem_zip hx).1
  rw [← hc]
  exact h

/-- A record of a table has the values of its row. -/
theorem lookup_record {name : String} (hname : t.definition.name = name)
    (hwidth : row.length = t.columns.length) (hc : (t.definition.column? column).isSome) :
    (t.record row).lookup ⟨name, column⟩ = some (t.value row column) := by
  subst hname
  rw [record, refs, value]
  change (t.columns.find? _).isSome at hc
  generalize t.columns = columns at hwidth hc ⊢
  induction columns generalizing row with
  | nil => cases hc
  | cons d rest ih =>
      obtain ⟨v, row, rfl⟩ := List.exists_cons_of_length_eq_add_one hwidth
      have hkey : ((⟨t.definition.name, column⟩ : ColumnRef) ==
          ⟨t.definition.name, d.name⟩) = (column == d.name) := by
        change (_ == _ && _) = _
        rw [beq_self_eq_true, Bool.true_and]
      rw [List.map_cons, List.zip_cons_cons, List.lookup_cons, hkey, List.findIdx_cons]
      by_cases hname : d.name = column
      · simp [hname]
      · have hother : (column == d.name) = false := beq_eq_false_iff_ne.2 (Ne.symm hname)
        have hother' : (d.name == column) = false := beq_eq_false_iff_ne.2 hname
        rw [hother, hother']
        rw [List.find?_cons, hother'] at hc
        exact ih (by simpa using hwidth) hc

end Table

/-! ## Partners -/

section

variable {j : Join} {t : Table} {r : Record}

/-- A join of a record with a table, on a column of each. -/
structure Fits (j : Join) (t : Table) (r : Record) : Prop where
  left : j.left.table = t.definition.name
  column : (t.definition.column? j.left.column).isSome
  right : (r.lookup j.right).isSome
  apart : Apart t.definition.name r

theorem partners_eq (hwidth : ∀ row ∈ t.rows, row.length = t.columns.length)
    (hj : Fits j t r) :
    partners j t r =
      (t.rows.filter fun row =>
        (t.value row j.left.column).agrees (valueIn r j.right)).map (r ++ t.record ·) := by
  have hrecords : t.records.map (r ++ ·) = t.rows.map (r ++ t.record ·) := by
    rw [Table.records, List.map_map]
    rfl
  rw [partners, hrecords, List.filter_map]
  refine congrArg (List.map _) (List.filter_congr fun row hrow => ?_)
  have hleft : valueIn (r ++ t.record row) j.left = t.value row j.left.column := by
    refine valueIn_of_lookup ((lookup_append_right (hj.left ▸ hj.apart)).trans ?_)
    exact t.lookup_record hj.left.symm (hwidth row hrow) hj.column
  rw [Function.comp_apply, hleft, valueIn_append_left hj.right]

theorem exists_of_mem_partners (hwidth : ∀ row ∈ t.rows, row.length = t.columns.length)
    (hj : Fits j t r) {both : Record} (h : both ∈ partners j t r) :
    ∃ row ∈ t.rows, (t.value row j.left.column).agrees (valueIn r j.right) = true ∧
      both = r ++ t.record row := by
  rw [partners_eq hwidth hj] at h
  obtain ⟨row, hrow, rfl⟩ := List.mem_map.1 h
  obtain ⟨hmem, hagrees⟩ := List.mem_filter.1 hrow
  exact ⟨row, hmem, hagrees, rfl⟩

theorem append_of_mem_joined {both : Record} (h : both ∈ joined j t r) :
    ∃ s, both = r ++ s := by
  have hpartners : ∀ x ∈ partners j t r, ∃ s, x = r ++ s := by
    intro x hx
    obtain ⟨s, -, rfl⟩ := List.mem_map.1 (List.mem_of_mem_filter hx)
    exact ⟨s, rfl⟩
  rw [joined] at h
  split at h
  · exact ⟨_, List.mem_singleton.1 h⟩
  · exact hpartners _ h

namespace Database.Has

variable {db : Database} {d : StoredTable} {row : List Value}

theorem lookup_record (h : db.Has d t) (hrow : row ∈ t.rows) {c : String}
    (hc : (d.column? c).isSome) : (t.record row).lookup ⟨d.name, c⟩ = some (t.value row c) :=
  Table.lookup_record h.name (h.sound.width row hrow) (by rw [h.definition, hc])

theorem apart (h : db.Has d t) {name : String} (hname : d.name ≠ name) :
    Apart name (t.record row) :=
  Table.apart_record (by rw [h.name]; exact hname)

theorem fits (h : db.Has d t) (hleft : j.left.table = d.name)
    (hcolumn : (d.column? j.left.column).isSome) (hright : (r.lookup j.right).isSome)
    (hapart : Apart d.name r) : Fits j t r where
  left := hleft.trans h.name.symm
  column := by rw [h.definition, hcolumn]
  right := hright
  apart := by rw [h.name]; exact hapart

end Database.Has

/-- A table may lose the rows that a record does not agree with. -/
theorem joined_keepRows (hwidth : ∀ row ∈ t.rows, row.length = t.columns.length)
    (hj : Fits j t r) {keep : List Value → Bool}
    (hkeep : ∀ row ∈ t.rows,
      (t.value row j.left.column).agrees (valueIn r j.right) = true → keep row = true) :
    joined j (t.keepRows keep) r = joined j t r := by
  have hpartners : partners j (t.keepRows keep) r = partners j t r := by
    have hj' : Fits j (t.keepRows keep) r := ⟨hj.left, hj.column, hj.right, hj.apart⟩
    have hwidth' : ∀ row ∈ (t.keepRows keep).rows,
        row.length = (t.keepRows keep).columns.length :=
      fun row hrow => hwidth row (List.mem_of_mem_filter hrow)
    rw [partners_eq hwidth hj, partners_eq hwidth' hj']
    change ((t.rows.filter keep).filter _).map _ = _
    rw [List.filter_filter]
    refine congrArg (List.map _) (List.filter_congr fun row hrow => ?_)
    rw [Bool.eq_iff_iff, Bool.and_eq_true]
    exact ⟨And.left, fun hagrees => ⟨hagrees, hkeep row hrow hagrees⟩⟩
  rw [joined, joined, hpartners]
  rfl

end

/-! ## The order of rows -/

/-- Two tables with the same rows, as often and in any order. -/
structure Table.Alike (t t' : Table) : Prop where
  definition : t.definition = t'.definition
  rows : t.rows.Perm t'.rows

def Database.Alike (db db' : Database) : Prop := List.Forall₂ Table.Alike db.tables db'.tables

section

variable {t t' : Table} {j : Join} {r : Record}

theorem Table.Alike.records (h : t.Alike t') : t.records.Perm t'.records := by
  rw [Table.records, Table.records, refs, refs, columns, columns, h.definition]
  exact h.rows.map _

theorem Table.Alike.absent (h : t.Alike t') : t.absent = t'.absent := by
  rw [Table.absent, Table.absent, refs, refs, columns, columns, h.definition]

theorem Table.Alike.joined (h : t.Alike t') : (joined j t r).Perm (joined j t' r) := by
  have hpartners : (partners j t r).Perm (partners j t' r) :=
    (h.records.map _).filter _
  rw [Relational.joined, Relational.joined, h.absent]
  cases hkind : j.kind with
  | inner => exact hpartners
  | left =>
      cases hp : partners j t r with
      | nil =>
          rw [hp] at hpartners
          rw [hpartners.nil_eq]
      | cons x xs =>
          rw [hp] at hpartners
          cases hp' : partners j t' r with
          | nil => rw [hp'] at hpartners; exact absurd hpartners.symm.nil_eq (by simp)
          | cons y ys => rw [hp'] at hpartners; exact hpartners

end

namespace Database

variable {db db' : Database}

theorem Alike.refl (db : Database) : db.Alike db :=
  List.forall₂_same.2 fun _ _ => ⟨rfl, .refl _⟩

theorem Alike.table? (h : db.Alike db') {name : String} {t : Table}
    (ht : db.table? name = some t) : ∃ t', db'.table? name = some t' ∧ t.Alike t' := by
  rw [Database.table?] at ht
  rw [Database.table?]
  rw [Database.Alike] at h
  generalize db.tables = ts at h ht
  generalize db'.tables = ts' at h
  induction h with
  | nil => cases ht
  | @cons u u' us us' hu _ ih =>
      rw [List.find?_cons] at ht ⊢
      rw [← hu.definition]
      cases hname : u.definition.name == name with
      | true =>
          rw [hname] at ht
          cases ht
          exact ⟨u', rfl, hu⟩
      | false =>
          rw [hname] at ht
          exact ih ht

theorem find_eq {name : String} {t : Table} (h : db.table? name = some t) :
    db.find name = .ok t := by
  rw [find, h]

theorem Alike.find (h : db.Alike db') {name : String} {t : Table}
    (ht : db.find name = .ok t) : ∃ t', db'.find name = .ok t' ∧ t.Alike t' := by
  obtain ⟨t', ht', halike⟩ := h.table? (find_ok ht)
  exact ⟨t', find_eq ht', halike⟩

/-- The records so far, joined with one more table. -/
def join (db : Database) (out : List Record × Record) (j : Join) :
    Except Fault (List Record × Record) := do
  let t ← db.find j.table
  return (out.1.flatMap (joined j t), out.2 ++ t.absent)

theorem records_eq (db : Database) (rel : Relation) :
    db.records rel =
      db.find rel.table >>= fun t => rel.joins.foldlM db.join (t.records, t.absent) :=
  rfl

theorem join_eq {j : Join} {t : Table} (ht : db.table? j.table = some t)
    (rs : List Record) (absent : Record) :
    db.join (rs, absent) j = .ok (rs.flatMap (joined j t), absent ++ t.absent) := by
  rw [join, find_eq ht]
  rfl

theorem records_join {table : String} (j : Join) {t u : Table}
    (ht : db.table? table = some t) (hu : db.table? j.table = some u) :
    db.records ⟨table, [j]⟩ =
      .ok (t.rows.flatMap fun row => joined j u (t.record row), t.absent ++ u.absent) := by
  have hrecords : t.records = t.rows.map t.record := rfl
  rw [records_eq, find_eq ht]
  change [j].foldlM db.join (t.records, t.absent) = _
  rw [List.foldlM_cons, join_eq hu, hrecords, List.flatMap_map]
  rfl

theorem records_join_join {table : String} (j j' : Join) {t u u' : Table}
    (ht : db.table? table = some t) (hu : db.table? j.table = some u)
    (hu' : db.table? j'.table = some u') :
    db.records ⟨table, [j, j']⟩ =
      .ok (t.rows.flatMap fun row => (joined j u (t.record row)).flatMap (joined j' u'),
        t.absent ++ u.absent ++ u'.absent) := by
  have hone := records_join j ht hu
  rw [records_eq, find_eq ht] at hone ⊢
  change [j].foldlM db.join (t.records, t.absent) = _ at hone
  change ([j] ++ [j']).foldlM db.join (t.records, t.absent) = _
  rw [List.foldlM_append, hone]
  change [j'].foldlM db.join (_, _) = _
  rw [List.foldlM_cons, join_eq hu', List.flatMap_assoc]
  rfl

theorem Alike.join (h : db.Alike db') {joins : List Join} {xs xs' rs : List Record}
    {a absent : Record} (hperm : xs.Perm xs')
    (hrs : joins.foldlM db.join (xs, a) = .ok (rs, absent)) :
    ∃ rs', joins.foldlM db'.join (xs', a) = .ok (rs', absent) ∧ rs.Perm rs' := by
  induction joins generalizing xs xs' a with
  | nil =>
      cases hrs
      exact ⟨xs', rfl, hperm⟩
  | cons j rest ih =>
      rw [List.foldlM_cons] at hrs ⊢
      obtain ⟨out, hout, hrs⟩ := ok_of_bind hrs
      obtain ⟨t, ht, hout⟩ := ok_of_bind hout
      cases hout
      obtain ⟨t', ht', halike⟩ := h.find ht
      have hjoined : (xs.flatMap (joined j t)).Perm (xs'.flatMap (joined j t')) :=
        hperm.flatMap fun _ _ => halike.joined
      obtain ⟨rs', hrs', hall⟩ := ih hjoined hrs
      refine ⟨rs', ?_, hall⟩
      rw [halike.absent] at hrs'
      rw [Database.join, ht']
      exact hrs'

/-- The records of a relation are the same in any two such states, but for their order. -/
theorem Alike.records (h : db.Alike db') {rel : Relation} {rs : List Record} {absent : Record}
    (hrs : db.records rel = .ok (rs, absent)) :
    ∃ rs', db'.records rel = .ok (rs', absent) ∧ rs.Perm rs' := by
  rw [records_eq] at hrs ⊢
  obtain ⟨t, ht, hrs⟩ := ok_of_bind hrs
  obtain ⟨t', ht', halike⟩ := h.find ht
  rw [ht']
  rw [halike.absent] at hrs
  exact h.join halike.records hrs

end Database

end RequestLog.Relational
