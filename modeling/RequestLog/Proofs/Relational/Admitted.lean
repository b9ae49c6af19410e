import Mathlib.Data.List.Forall2
import Mathlib.Data.List.Nodup
import RequestLog.Proofs.Filter.Check
import RequestLog.Relational.Database

/-!
# States that a schema admits

A database is admitted by a schema if it has its tables, and every row could have been
inserted last: it is as wide as its table, holds what has to be there, has a key of its
own, and every value that has to occur elsewhere does. A column of texts holds nothing
but texts and absent values, because whatever it is given is kept as a text.

An empty database is admitted, and inserting keeps it so (`Admitted.insert`). The checks
of an insertion look at the new row alone, so what has to be shown is that the rows which
are there already stay admitted: nothing that they refer to goes away.
-/

namespace RequestLog.Relational

open Schema

/-! ## Tables -/

/-- A value of a column of texts. -/
def Value.Textual (v : Value) : Prop := v = .null ∨ ∃ s, v = .text s

namespace Table

variable {t : Table}

def keepRows (t : Table) (keep : List Value → Bool) : Table :=
  { t with rows := t.rows.filter keep }

/-- Whether two rows have the same key, if their table has one. -/
def sameKey (t : Table) (row other : List Value) : Bool :=
  !t.definition.keyColumns.isEmpty &&
    t.definition.keyColumns.all fun c => (t.value row c).agrees (t.value other c)

/-- The rows of a table on their own. -/
structure Sound (t : Table) : Prop where
  width : ∀ row ∈ t.rows, row.length = t.columns.length
  texts : ∀ row ∈ t.rows, ∀ c, ∀ column, t.definition.column? c = some column →
    affinity column.type = .text → (t.value row c).Textual
  present : ∀ row ∈ t.rows, t.checkPresent row = .ok ()
  only : ∀ row ∈ t.rows, t.checkOnly row = .ok ()
  keys : t.rows.Pairwise fun row later => t.sameKey later row = false

end Table

/-- No two rows of a sound table have the same key. -/
theorem Table.Sound.eq_of_sameKey {t : Table} (h : t.Sound) {row other : List Value}
    (hrow : row ∈ t.rows) (hother : other ∈ t.rows) (hsame : t.sameKey row other = true)
    (hsame' : t.sameKey other row = true) : row = other := by
  have hkeys := h.keys
  generalize t.rows = rows at hrow hother hkeys
  induction hkeys with
  | nil => cases hrow
  | cons hfirst _ ih =>
      rcases List.mem_cons.1 hrow with rfl | hlater
      · rcases List.mem_cons.1 hother with rfl | hlater'
        · rfl
        · rw [hfirst other hlater'] at hsame'
          cases hsame'
      · rcases List.mem_cons.1 hother with rfl | hlater'
        · rw [hfirst row hlater] at hsame
          cases hsame
        · exact ih hlater hlater'

/-- What a schema admits: its tables, with rows that are sound and refer to rows that
are there. -/
structure Database.Admitted (db : Database) (schema : List StoredTable) : Prop where
  tables : db.tables.map (·.definition) = schema
  sound : ∀ t ∈ db.tables, t.Sound
  references : ∀ t ∈ db.tables, ∀ row ∈ t.rows, db.checkReferences t row = .ok ()

/-! ## What an insertion checks -/

namespace Table

variable {t : Table} {row : List Value}

/-- What a column of texts keeps is a text, unless it is absent. -/
theorem textual_of_keep {c : StoredColumn} {given : Option Value} {v : Value}
    (hc : affinity c.type = .text) (h : t.keep c given = .ok v) : v.Textual := by
  have hnumber : isRowNumber c = false := by
    rw [isRowNumber, hc]
    exact Bool.and_false _
  rw [keep, if_neg (by rw [hnumber]; exact Bool.false_ne_true), hc] at h
  cases h
  cases given.getD .null with
  | null => exact .inl rfl
  | int i => exact .inr ⟨_, rfl⟩
  | real x => exact .inr ⟨_, rfl⟩
  | text s => exact .inr ⟨_, rfl⟩

theorem value_of_forall₂ {P : StoredColumn → Value → Prop} {c : String}
    {column : StoredColumn} (h : List.Forall₂ P t.columns row)
    (hc : t.definition.column? c = some column) : P column (t.value row c) := by
  rw [value]
  rw [StoredTable.column?] at hc
  change t.columns.find? _ = _ at hc
  generalize t.columns = columns at h hc ⊢
  induction h with
  | nil => cases hc
  | cons hv _ ih =>
      rw [List.find?_cons] at hc
      rw [List.findIdx_cons]
      split at hc
      · next hname => cases hc; rw [hname]; exact hv
      · next hname => rw [hname]; exact ih hc

theorem not_sameKey_of_checkKey (h : t.checkKey row = .ok ()) :
    ∀ other ∈ t.rows, t.sameKey row other = false := by
  intro other hother
  rw [checkKey] at h
  split at h
  · cases h
  · next hnew =>
      rw [Bool.eq_false_iff]
      intro hsame
      rw [sameKey, Bool.and_eq_true] at hsame
      refine hnew (Bool.and_eq_true_iff.2 ⟨hsame.1, List.any_eq_true.2 ⟨other, hother, ?_⟩⟩)
      exact hsame.2

end Table

namespace Database

variable {db db' : Database} {name : String} {given : List (String × Value)}

theorem find_ok {t : Table} (h : db.find name = .ok t) : db.table? name = some t := by
  rw [find] at h
  split at h
  · next ht => cases h; exact ht
  · cases h

theorem name_of_table? {t : Table} (h : db.table? name = some t) :
    t.definition.name = name := by
  have hname := List.find?_some h
  exact beq_iff_eq.1 hname

/-- A row that is inserted has passed every check, the last with itself in its table. -/
theorem insert_ok (h : db.insert name given = .ok db') :
    ∃ t row, db.table? name = some t ∧
      List.Forall₂ (fun c v => t.keep c (given.lookup c.name) = .ok v) t.columns row ∧
      t.checkPresent row = .ok () ∧ t.checkOnly row = .ok () ∧ t.checkKey row = .ok () ∧
      db' = db.withRows name (t.rows ++ [row]) ∧ db'.checkReferences t row = .ok () := by
  obtain ⟨t, ht, h⟩ := ok_of_bind h
  split at h
  · cases h
  · obtain ⟨row, hrow, h⟩ := ok_of_bind h
    obtain ⟨⟨⟩, hpresent, h⟩ := ok_of_bind h
    obtain ⟨⟨⟩, honly, h⟩ := ok_of_bind h
    obtain ⟨⟨⟩, hkey, h⟩ := ok_of_bind h
    obtain ⟨⟨⟩, hreferences, h⟩ := ok_of_bind h
    cases h
    exact ⟨t, row, find_ok ht, forall₂_of_mapM hrow, hpresent, honly, hkey, rfl, hreferences⟩

theorem checkReferences_iff {t : Table} {row : List Value} :
    db.checkReferences t row = .ok () ↔
      ∀ c ∈ t.columns, (t.value row c.name).isNull = false →
        ∀ r, c.references = some r → ∃ other, db.table? r.table = some other ∧
          ∃ row' ∈ other.rows,
            (other.value row' r.column).agrees (t.value row c.name) = true := by
  rw [checkReferences]
  simp only [ite_eq_left_iff, reduceCtorEq, imp_false, not_not, List.all_eq_true,
    Bool.or_eq_true, Option.all_eq_true, Option.any_eq_true, List.any_eq_true]
  refine forall₂_congr fun c _ => ?_
  rw [← Bool.not_eq_true, or_iff_not_imp_left]

/-! ## Rows that are added -/

theorem table?_withRows {t : Table} {rows : List (List Value)} {other : String}
    (h : db.table? other = some t) :
    (db.withRows name rows).table? other =
      some (if t.definition.name == name then { t with rows } else t) := by
  have hsame : (fun u : Table => u.definition.name == other) ∘
      (fun u : Table => if u.definition.name == name then { u with rows } else u) =
        fun u => u.definition.name == other := by
    funext u
    rw [Function.comp_apply]
    split <;> rfl
  rw [table?] at h
  rw [table?, withRows, List.find?_map, hsame, h]
  rfl

/-- No row goes away when one is added, and so whatever was referred to is still there. -/
theorem checkReferences_add {t t₁ : Table} {row row₁ : List Value}
    (ht : db.table? name = some t) (h : db.checkReferences t₁ row₁ = .ok ()) :
    (db.withRows name (t.rows ++ [row])).checkReferences t₁ row₁ = .ok () := by
  rw [checkReferences_iff] at h ⊢
  intro c hc hpresent r hr
  obtain ⟨other, hother, row', hrow', hagrees⟩ := h c hc hpresent r hr
  refine ⟨_, table?_withRows hother, row', ?_, ?_⟩
  · split
    · next hname =>
        have heq : other = t := by
          rw [beq_iff_eq, name_of_table? hother] at hname
          rw [hname, ht] at hother
          exact (Option.some.inj hother).symm
        rw [heq] at hrow'
        exact List.mem_append_left _ hrow'
    · exact hrow'
  · split <;> exact hagrees

end Database

/-- A sound table stays so when a row that passed every check is added to it. -/
theorem Table.Sound.add {t : Table} {row : List Value} {given : StoredColumn → Option Value}
    (h : t.Sound) (hkept : List.Forall₂ (fun c v => t.keep c (given c) = .ok v) t.columns row)
    (hpresent : t.checkPresent row = .ok ()) (honly : t.checkOnly row = .ok ())
    (hkey : t.checkKey row = .ok ()) : Sound { t with rows := t.rows ++ [row] } where
  width := List.forall_mem_append.2
    ⟨h.width, List.forall_mem_singleton.2 hkept.length_eq.symm⟩
  texts := List.forall_mem_append.2 ⟨h.texts, List.forall_mem_singleton.2
    fun _ _ hc htext => textual_of_keep htext (value_of_forall₂ hkept hc)⟩
  present := List.forall_mem_append.2 ⟨h.present, List.forall_mem_singleton.2 hpresent⟩
  only := List.forall_mem_append.2 ⟨h.only, List.forall_mem_singleton.2 honly⟩
  keys := by
    refine List.pairwise_append.2 ⟨h.keys, List.pairwise_singleton .., fun other hother => ?_⟩
    exact List.forall_mem_singleton.2 (not_sameKey_of_checkKey hkey other hother)

/-- A schema has one table of a name, and so has every state that it admits. -/
theorem Database.Admitted.eq_of_name {db : Database} {schema : List StoredTable}
    {name : String} {t u : Table} (h : db.Admitted schema)
    (hnames : (schema.map (·.name)).Nodup) (ht : db.table? name = some t)
    (hu : u ∈ db.tables) (hname : u.definition.name = name) : u = t := by
  rw [← h.tables, List.map_map] at hnames
  exact List.inj_on_of_nodup_map hnames hu (List.mem_of_find?_eq_some ht)
    (hname.trans (name_of_table? ht).symm)

/-- Whatever is inserted into a state that a schema admits, it admits the state after. -/
theorem Database.Admitted.insert {db db' : Database} {schema : List StoredTable}
    {name : String} {given : List (String × Value)}
    (hnames : (schema.map (·.name)).Nodup) (h : db.Admitted schema)
    (hinsert : db.insert name given = .ok db') : db'.Admitted schema := by
  obtain ⟨t, row, ht, hkept, hpresent, honly, hkey, rfl, hreferences⟩ := insert_ok hinsert
  have htmem : t ∈ db.tables := List.mem_of_find?_eq_some ht
  have honce : ∀ u ∈ db.tables, (u.definition.name == name) = true → u = t :=
    fun u hu hname => h.eq_of_name hnames ht hu (beq_iff_eq.1 hname)
  constructor
  · rw [← h.tables, withRows, List.map_map]
    refine List.map_congr_left fun u _ => ?_
    rw [Function.comp_apply]
    split <;> rfl
  · intro u' hu'
    obtain ⟨u, hu, rfl⟩ := List.mem_map.1 hu'
    split
    · next hname =>
        rw [honce u hu hname]
        exact (h.sound t htmem).add hkept hpresent honly hkey
    · exact h.sound u hu
  · intro u' hu' r hr
    obtain ⟨u, hu, rfl⟩ := List.mem_map.1 hu'
    split at hr
    · next hname =>
        rw [if_pos hname]
        rw [honce u hu hname]
        rcases List.mem_append.1 hr with hr | hr
        · exact checkReferences_add ht (h.references t htmem r hr)
        · rw [List.mem_singleton.1 hr]
          exact hreferences
    · next hname =>
        rw [if_neg hname]
        exact checkReferences_add ht (h.references u hu r hr)

namespace Database

theorem Admitted.of_empty {db : Database} {schema : List StoredTable}
    (h : db.tables.map (·.definition) = schema) (hempty : ∀ t ∈ db.tables, t.rows = []) :
    db.Admitted schema where
  tables := h
  sound t ht := by
    have hrows := hempty t ht
    constructor <;> simp [hrows]
  references t ht := by simp [hempty t ht]

def insertAll (db : Database) (rows : List (String × List (String × Value))) :
    Except Fault Database :=
  rows.foldlM (fun db row => db.insert row.1 row.2) db

/-- A schema admits every state that insertions lead to. -/
theorem Admitted.insertAll {db db' : Database} {schema : List StoredTable}
    {rows : List (String × List (String × Value))}
    (hnames : (schema.map (·.name)).Nodup) (h : db.Admitted schema)
    (hinsert : db.insertAll rows = .ok db') : db'.Admitted schema := by
  induction rows generalizing db with
  | nil => cases hinsert; exact h
  | cons row rest ih =>
      rw [Database.insertAll, List.foldlM_cons] at hinsert
      obtain ⟨db₁, hfirst, hrest⟩ := ok_of_bind hinsert
      exact ih (h.insert hnames hfirst) hrest

/-- A table of a database that is as a schema defines it. -/
structure Has (db : Database) (d : StoredTable) (t : Table) : Prop where
  found : db.table? d.name = some t
  definition : t.definition = d
  sound : t.Sound

theorem Admitted.has {db : Database} {schema : List StoredTable} (h : db.Admitted schema)
    {d : StoredTable} (hd : schema.find? (·.name == d.name) = some d) : ∃ t, db.Has d t := by
  have hfound := hd
  rw [← h.tables, List.find?_map] at hfound
  obtain ⟨t, ht, hdef⟩ := Option.map_eq_some_iff.1 hfound
  exact ⟨t, ht, hdef, h.sound t (List.mem_of_find?_eq_some ht)⟩

namespace Has

variable {db : Database} {d : StoredTable} {t : Table} {row : List Value}

theorem name (h : db.Has d t) : t.definition.name = d.name := congrArg _ h.definition

theorem textual (h : db.Has d t) (hrow : row ∈ t.rows) {c : String} {column : StoredColumn}
    (hc : d.column? c = some column) (htext : affinity column.type = .text) :
    (t.value row c).Textual :=
  h.sound.texts row hrow c column (by rw [h.definition, hc]) htext

end Has

end Database

end RequestLog.Relational
