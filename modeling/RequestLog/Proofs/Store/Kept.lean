import RequestLog.Proofs.Schema.Making

/-!
# What a store keeps of its schema

Of all that is in a store only this matters to whoever sets it up: which tables and indexes
there are, and which version is on record (`Kept`). A statement makes some of these, puts down
a version, or asks for the version or for a table (`Deed`), and it is either carried out or
refused.

A statement that fails may have been carried out all the same, and of a script a part may have
been carried out (`Kept.Partly`). What no failure takes away is what was there before:
`Kept.Partly.grows`.

An embedded store keeps its state apart while a transaction is under way (`Ledger`). There a
failure may do anything to what is pending, or end the transaction; it never reaches what was
kept before.
-/

namespace RequestLog.Store

open Schema

structure Kept where
  tables : List String := []
  indexes : List String := []
  version : Option Int := none
  deriving DecidableEq

/-- What a statement asks of a store. -/
inductive Deed where
  | findTable (name : String)
  | readVersion
  | make (made : List Making)
  /-- Puts down a version, in place of the one on record or only where there is none. -/
  | record (version : Int) (replaces : Bool)
  | unknown
  deriving DecidableEq

namespace Kept

def hasVersions (k : Kept) : Bool := k.tables.contains versionTableName

def make (k : Kept) (m : Making) : Option Kept :=
  match m.indexed with
  | none =>
      if m.name ∈ k.tables then if m.unlessThere then some k else none
      else some { k with tables := k.tables ++ [m.name] }
  | some table =>
      if table ∉ k.tables then none
      else if m.name ∈ k.indexes then if m.unlessThere then some k else none
      else some { k with indexes := k.indexes ++ [m.name] }

def makeAll (k : Kept) (made : List Making) : Option Kept := made.foldlM make k

/-- The state behind a statement that is carried out, if it can be. -/
def does (k : Kept) : Deed → Option Kept
  | .findTable _ => some k
  | .readVersion => if k.hasVersions then some k else none
  | .make made => k.makeAll made
  | .record version replaces =>
      if k.hasVersions && (replaces || k.version.isNone) then some { k with version } else none
  | .unknown => none

/-- The states that a statement may leave behind that has failed. -/
inductive Partly (k : Kept) : Deed → Kept → Prop
  | nothing (d : Deed) : Partly k d k
  | some {made : List Making} {k' : Kept} (n : Nat) :
      k.makeAll (made.take n) = some k' → Partly k (.make made) k'
  | all {d : Deed} {k' : Kept} : k.does d = some k' → Partly k d k'

/-- Every table and every index of a schema is there. -/
structure Furnished (b : Backend) (k : Kept) : Prop where
  tables : ∀ name ∈ tableNames b, name ∈ k.tables
  indexes : ∀ name ∈ indexNames b, name ∈ k.indexes

/-- Everything of a schema is there, and the version on record is the current one. -/
structure Complete (b : Backend) (k : Kept) : Prop extends k.Furnished b where
  version : k.version = some currentVersion

theorem hasVersions_iff {k : Kept} : k.hasVersions = true ↔ versionTableName ∈ k.tables :=
  List.contains_iff_mem

theorem Furnished.hasVersions {b : Backend} {k : Kept} (h : k.Furnished b) :
    k.hasVersions = true :=
  hasVersions_iff.2 (h.tables _ (versionTable_mem b))

theorem Furnished.complete {b : Backend} {k : Kept} (h : k.Furnished b) :
    Complete b { k with version := some currentVersion } where
  tables := h.tables
  indexes := h.indexes
  version := rfl

/-! ## Making tables and indexes -/

/-- More tables and indexes than before, and the same version on record. -/
structure Grows (k k' : Kept) : Prop where
  tables : k.tables ⊆ k'.tables
  indexes : k.indexes ⊆ k'.indexes
  version : k'.version = k.version

theorem Grows.refl (k : Kept) : k.Grows k := ⟨fun _ h => h, fun _ h => h, rfl⟩

theorem Grows.trans {k k₁ k₂ : Kept} (h : k.Grows k₁) (h' : k₁.Grows k₂) : k.Grows k₂ :=
  ⟨fun _ ht => h'.tables (h.tables ht), fun _ ht => h'.indexes (h.indexes ht),
    h'.version.trans h.version⟩

/-- Whether what a statement makes is there. -/
def Has (k : Kept) (m : Making) : Prop :=
  match m.indexed with
  | none => m.name ∈ k.tables
  | some _ => m.name ∈ k.indexes

theorem Grows.has {k k' : Kept} (h : k.Grows k') {m : Making} (hm : k.Has m) : k'.Has m := by
  unfold Has at hm ⊢
  cases hindexed : m.indexed with
  | none =>
      rw [hindexed] at hm
      exact h.tables hm
  | some table =>
      rw [hindexed] at hm
      exact h.indexes hm

theorem make_some {k k' : Kept} {m : Making} (h : k.make m = some k') :
    k.Grows k' ∧ k'.Has m := by
  unfold make at h
  unfold Has
  cases hindexed : m.indexed with
  | none =>
      simp only [hindexed] at h
      split at h
      · next hthere =>
          split at h <;> cases h
          exact ⟨.refl _, hthere⟩
      · cases h
        exact ⟨⟨fun _ => List.mem_append_left _, fun _ h => h, rfl⟩,
          List.mem_append_right _ (List.mem_singleton_self _)⟩
  | some table =>
      simp only [hindexed] at h
      split at h
      · cases h
      · split at h
        · next hthere =>
            split at h <;> cases h
            exact ⟨.refl _, hthere⟩
        · cases h
          exact ⟨⟨fun _ h => h, fun _ => List.mem_append_left _, rfl⟩,
            List.mem_append_right _ (List.mem_singleton_self _)⟩

theorem makeAll_some {k k' : Kept} {made : List Making} (h : k.makeAll made = some k') :
    k.Grows k' ∧ ∀ m ∈ made, k'.Has m := by
  induction made generalizing k with
  | nil =>
      cases h
      exact ⟨.refl _, nofun⟩
  | cons m rest ih =>
      obtain ⟨k₁, hm, hrest⟩ := Option.bind_eq_some_iff.1 h
      obtain ⟨hgrows, hthere⟩ := make_some hm
      obtain ⟨hgrows', hthere'⟩ := ih hrest
      exact ⟨hgrows.trans hgrows', List.forall_mem_cons.2 ⟨hgrows'.has hthere, hthere'⟩⟩

/-- What is made only where it is missing can always be made, with indexes behind their
tables. -/
theorem exists_makeAll {made : List Making} (h : ∀ m ∈ made, m.unlessThere = true)
    {tables : List String} (hfounded : Making.founded tables made = true) {k : Kept}
    (htables : tables ⊆ k.tables) : ∃ k', k.makeAll made = some k' := by
  induction made generalizing tables k with
  | nil => exact ⟨k, rfl⟩
  | cons m rest ih =>
      obtain ⟨hm, hrest⟩ := List.forall_mem_cons.1 h
      have hmade : ∃ k₁ tables', k.make m = some k₁ ∧ Making.founded tables' rest = true ∧
          (k.Grows k₁ → k₁.Has m → tables' ⊆ k₁.tables) := by
        unfold make Has
        cases hindexed : m.indexed with
        | none =>
            simp only [Making.founded, hindexed] at hfounded
            simp only [hm, if_true]
            split <;> exact ⟨_, _, rfl, hfounded, fun hgrows hthere =>
              List.cons_subset.2 ⟨hthere, fun _ ht => hgrows.tables (htables ht)⟩⟩
        | some table =>
            simp only [Making.founded, hindexed, Bool.and_eq_true, List.contains_iff_mem]
              at hfounded
            simp only [hm, if_true, not_not.2 (htables hfounded.1), if_false]
            split <;> exact ⟨_, _, rfl, hfounded.2, fun hgrows _ _ ht =>
              hgrows.tables (htables ht)⟩
      obtain ⟨k₁, tables', hmade, hfounded', htables'⟩ := hmade
      obtain ⟨hgrows, hthere⟩ := make_some hmade
      obtain ⟨k', hk'⟩ := ih hrest hfounded' (htables' hgrows hthere)
      exact ⟨k', Option.bind_eq_some_iff.2 ⟨k₁, hmade, hk'⟩⟩

theorem Furnished.of_has {b : Backend} {k : Kept} (h : ∀ m ∈ makings b, k.Has m) :
    k.Furnished b where
  tables _ hname := h _ (table_mem_makings hname)
  indexes name hname := by
    obtain ⟨table, hmem⟩ := index_mem_makings hname
    exact h _ hmem

/-- A schema can be made at any time, and then everything of it is there. -/
theorem exists_furnished (k : Kept) (b : Backend) :
    ∃ k', k.does (.make (makings b)) = some k' ∧ k'.version = k.version ∧ k'.Furnished b := by
  obtain ⟨k', hk'⟩ := exists_makeAll (makings_unlessThere b) (makings_founded b)
    (List.nil_subset k.tables)
  obtain ⟨hgrows, hthere⟩ := makeAll_some hk'
  exact ⟨k', hk', hgrows.version, .of_has hthere⟩

/-- Making takes nothing away, even where it fails. -/
theorem Partly.grows {k k' : Kept} {made : List Making} (h : k.Partly (.make made) k') :
    k.Grows k' := by
  cases h with
  | nothing => exact .refl k
  | some n hmade => exact (makeAll_some hmade).1
  | all hmade => exact (makeAll_some hmade).1

theorem Partly.findTable {k k' : Kept} {name : String} (h : k.Partly (.findTable name) k') :
    k' = k := by
  cases h with
  | nothing => rfl
  | all h => exact (Option.some.inj h).symm

theorem Partly.readVersion {k k' : Kept} (h : k.Partly .readVersion k') : k' = k := by
  cases h with
  | nothing => rfl
  | all h => exact (Option.some.inj (Option.ite_none_right_eq_some.1 h).2).symm

/-! ## Putting down the version -/

/-- The first version is put down where there is a table for it. -/
theorem does_record {k : Kept} (hversions : k.hasVersions = true) (hversion : k.version = none)
    (version : Int) (replaces : Bool) :
    k.does (.record version replaces) = some { k with version } := by
  rw [does, hversions, hversion, Option.isNone_none, Bool.or_true]
  rfl

theorem Partly.record {k k' : Kept} {version : Int} {replaces : Bool}
    (h : k.Partly (.record version replaces) k') : k' = k ∨ k' = { k with version } := by
  cases h with
  | nothing => exact .inl rfl
  | all h => exact .inr (Option.some.inj (Option.ite_none_right_eq_some.1 h).2).symm

end Kept

/-! ## Transactions -/

/-- What is kept, and what is to be kept once the transaction ends that is under way. -/
structure Ledger where
  kept : Kept := {}
  pending : Option Kept := none
  deriving DecidableEq

/-- What a statement asks of a store that has transactions. -/
inductive Move where
  | begin
  | commit
  | rollback
  | deed (d : Deed)

namespace Ledger

def does (l : Ledger) : Move → Option Ledger
  | .begin => if l.pending.isSome then none else some { l with pending := some l.kept }
  | .commit => l.pending.map fun k => ⟨k, none⟩
  | .rollback => l.pending.map fun _ => ⟨l.kept, none⟩
  | .deed d =>
      match l.pending with
      | some k => (k.does d).map fun k' => ⟨l.kept, some k'⟩
      | none => (l.kept.does d).map fun k' => ⟨k', none⟩

inductive Partly : Ledger → Move → Ledger → Prop
  | nothing (l : Ledger) (m : Move) : Partly l m l
  | pending (kept k : Kept) (m : Move) (pending : Option Kept) :
      Partly ⟨kept, some k⟩ m ⟨kept, pending⟩
  | kept {k k' : Kept} {d : Deed} : k.Partly d k' → Partly ⟨k, none⟩ (.deed d) ⟨k', none⟩

/-- What is left when nobody is connected any more. -/
def rest (l : Ledger) : Ledger := { l with pending := none }

/-- What whoever is connected finds. -/
def current (l : Ledger) : Kept := l.pending.getD l.kept

theorem does_pending {kept k k' : Kept} {d : Deed} (h : k.does d = some k') :
    does ⟨kept, some k⟩ (.deed d) = some ⟨kept, some k'⟩ :=
  congrArg (Option.map fun k' => (⟨kept, some k'⟩ : Ledger)) h

theorem does_settled {k k' : Kept} {d : Deed} (h : k.does d = some k') :
    does ⟨k, none⟩ (.deed d) = some ⟨k', none⟩ :=
  congrArg (Option.map fun k' => (⟨k', none⟩ : Ledger)) h

/-- A failure in a transaction does not reach what was kept before. -/
theorem Partly.kept_of_pending {kept k : Kept} {l : Ledger} {m : Move}
    (h : Partly ⟨kept, some k⟩ m l) : l.kept = kept := by
  cases h with
  | nothing => rfl
  | pending => rfl

/-- Nor does one on the way into a transaction or back out of it. -/
theorem Partly.kept_of_control {l l' : Ledger} {m : Move} (h : l.Partly m l')
    (hm : ∀ d, m ≠ .deed d) : l'.kept = l.kept := by
  cases h with
  | nothing => rfl
  | pending => rfl
  | @kept _ _ d => exact absurd rfl (hm d)

/-- What is done outside of transactions is kept at once. -/
theorem Partly.of_settled {k : Kept} {l : Ledger} {d : Deed} (h : Partly ⟨k, none⟩ (.deed d) l) :
    ∃ k', k.Partly d k' ∧ l = ⟨k', none⟩ := by
  cases h with
  | nothing => exact ⟨k, .nothing d, rfl⟩
  | kept h => exact ⟨_, h, rfl⟩

end Ledger

end RequestLog.Store
