import Mathlib.Data.List.Forall2

/-!
# Computations that can fail

A computation in steps has an answer when every step has one, and what the steps gave can
be taken apart from the end. A list that is gone through fails at one of its elements, or
gives one answer for each.
-/

namespace RequestLog

variable {ε α β : Type}

theorem ok_of_bind {x : Except ε α} {f : α → Except ε β} {b : β}
    (h : (x >>= f) = .ok b) : ∃ a, x = .ok a ∧ f a = .ok b := by
  cases x with
  | error e => cases h
  | ok a => exact ⟨a, rfl, h⟩

theorem ok_of_map {x : Except ε α} {f : α → β} {b : β}
    (h : x.map f = .ok b) : ∃ a, x = .ok a ∧ f a = b := by
  cases x with
  | error e => cases h
  | ok a => exact ⟨a, rfl, Except.ok.inj h⟩

theorem exists_ok_map_iff {x : Except ε α} {f : α → β} :
    (∃ b, x.map f = .ok b) ↔ ∃ a, x = .ok a := by
  cases x with
  | error e => simp [Except.map]
  | ok a => simp [Except.map]

theorem map_error_iff {x : Except ε α} {f : α → β} {e : ε} :
    x.map f = .error e ↔ x = .error e := by
  cases x with
  | error e => simp [Except.map]
  | ok a => simp [Except.map]

theorem forall₂_of_mapM {f : α → Except ε β} {xs : List α} {ys : List β}
    (h : xs.mapM f = .ok ys) : List.Forall₂ (fun x y => f x = .ok y) xs ys := by
  induction xs generalizing ys with
  | nil =>
      rw [List.mapM_nil] at h
      cases h
      exact .nil
  | cons x rest ih =>
      rw [List.mapM_cons] at h
      obtain ⟨y, hy, h⟩ := ok_of_bind h
      obtain ⟨ys, hys, h⟩ := ok_of_bind h
      cases h
      exact .cons hy (ih hys)

theorem mapM_of_forall₂ {f : α → Except ε β} {xs : List α} {ys : List β}
    (h : List.Forall₂ (fun x y => f x = .ok y) xs ys) : xs.mapM f = .ok ys := by
  induction h with
  | nil => rfl
  | cons hy _ ih =>
      rw [List.mapM_cons, hy, ih]
      rfl

theorem mapM_congr {f g : α → Except ε β} {xs : List α} (h : ∀ x ∈ xs, f x = g x) :
    xs.mapM f = xs.mapM g := by
  induction xs with
  | nil => rfl
  | cons x rest ih =>
      obtain ⟨hx, hrest⟩ := List.forall_mem_cons.1 h
      rw [List.mapM_cons, List.mapM_cons, hx, ih hrest]

theorem mapM_mapError {ε' : Type} (f : α → Except ε β) (g : ε → ε') (xs : List α) :
    xs.mapM (fun x => (f x).mapError g) = (xs.mapM f).mapError g := by
  induction xs with
  | nil => rfl
  | cons x rest ih =>
      rw [List.mapM_cons, List.mapM_cons, ih]
      cases f x with
      | error e => rfl
      | ok y => cases rest.mapM f <;> rfl

theorem ok_of_mapError {ε' : Type} {x : Except ε α} {g : ε → ε'} {a : α}
    (h : x.mapError g = .ok a) : x = .ok a := by
  cases x with
  | error e => cases h
  | ok a' => exact congrArg Except.ok (Except.ok.inj h)

theorem exists_of_mapM_error {f : α → Except ε β} {xs : List α} {e : ε}
    (h : xs.mapM f = .error e) : ∃ x ∈ xs, f x = .error e := by
  induction xs with
  | nil => cases h
  | cons x rest ih =>
      rw [List.mapM_cons] at h
      cases hx : f x with
      | error e' =>
          rw [hx] at h
          cases h
          exact ⟨x, List.mem_cons_self .., hx⟩
      | ok y =>
          rw [hx] at h
          cases hrest : rest.mapM f with
          | error e' =>
              obtain rfl : e' = e := by
                rw [hrest] at h
                exact Except.error.inj h
              obtain ⟨x', hmem, hx'⟩ := ih hrest
              exact ⟨x', List.mem_cons_of_mem _ hmem, hx'⟩
          | ok ys =>
              rw [hrest] at h
              cases h

theorem exists_ok_mapM_iff {f : α → Except ε β} {xs : List α} :
    (∃ ys, xs.mapM f = .ok ys) ↔ ∀ x ∈ xs, ∃ y, f x = .ok y := by
  constructor
  · rintro ⟨ys, hys⟩
    have hall := forall₂_of_mapM hys
    clear hys
    induction hall with
    | nil => exact List.forall_mem_nil _
    | cons hy _ ih => exact List.forall_mem_cons.2 ⟨⟨_, hy⟩, ih⟩
  · intro hall
    cases h : xs.mapM f with
    | ok ys => exact ⟨ys, rfl⟩
    | error e =>
        obtain ⟨x, hx, herror⟩ := exists_of_mapM_error h
        obtain ⟨y, hy⟩ := hall x hx
        rw [hy] at herror
        cases herror

/-- A list that is gone through fails as the first of its elements that fails. -/
theorem mapM_error_iff {f : α → Except ε β} {xs : List α} {e : ε} :
    xs.mapM f = .error e ↔
      ∃ before x after, xs = before ++ x :: after ∧ (∀ y ∈ before, ∃ z, f y = .ok z) ∧
        f x = .error e := by
  induction xs with
  | nil =>
      constructor
      · intro h
        cases h
      · rintro ⟨before, x, after, hxs, -⟩
        cases before <;> cases hxs
  | cons x rest ih =>
      cases hx : f x with
      | error e' =>
          have hstep : (x :: rest).mapM f = .error e' := by
            rw [List.mapM_cons, hx]
            rfl
          rw [hstep]
          constructor
          · intro h
            cases h
            exact ⟨[], x, rest, rfl, by simp, hx⟩
          · rintro ⟨before, x', after, hxs, hbefore, hx'⟩
            cases before with
            | nil =>
                obtain ⟨rfl, -⟩ := List.cons.inj hxs
                rw [Except.error.inj (hx.symm.trans hx')]
            | cons y before =>
                obtain ⟨rfl, -⟩ := List.cons.inj hxs
                obtain ⟨z, hz⟩ := hbefore _ (List.mem_cons_self ..)
                rw [hx] at hz
                cases hz
      | ok y =>
          have hstep : (x :: rest).mapM f = .error e ↔ rest.mapM f = .error e := by
            rw [List.mapM_cons, hx]
            cases rest.mapM f <;> simp [bind, Except.bind, pure, Except.pure]
          rw [hstep, ih]
          constructor
          · rintro ⟨before, x', after, rfl, hbefore, hx'⟩
            refine ⟨x :: before, x', after, rfl, ?_, hx'⟩
            exact List.forall_mem_cons.2 ⟨⟨y, hx⟩, hbefore⟩
          · rintro ⟨before, x', after, hxs, hbefore, hx'⟩
            cases before with
            | nil =>
                obtain ⟨rfl, -⟩ := List.cons.inj hxs
                rw [hx] at hx'
                cases hx'
            | cons y' before =>
                obtain ⟨rfl, rfl⟩ := List.cons.inj hxs
                exact ⟨before, x', after, rfl, (List.forall_mem_cons.1 hbefore).2, hx'⟩

end RequestLog
