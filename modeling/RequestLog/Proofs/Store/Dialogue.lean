import RequestLog.Store.Migration

/-!
# Dialogues with a store

The program of a client, laid out as what it says: a dialogue is over, or something is
said and every answer leads on to another dialogue. In this form a program can be stopped
in the middle, and two of them can take turns.

What a store does is a relation between what is said and what is answered, with the state
before and after. A dialogue that runs ends with a result, or it is stopped somewhere
(`Runs`). What holds whenever a run may be stopped, and of every result, is shown along
the dialogue (`Ensures`): one rule for each way in which programs are put together, so a
program is never unfolded as a whole.
-/

namespace RequestLog.Store

inductive Dialogue (Call Reply α : Type) where
  | ended (result : α)
  | say (q : Call) (next : Reply → Dialogue Call Reply α)

namespace Dialogue

variable {Call Reply ε ε' α β σ : Type}

protected def bind : Dialogue Call Reply α → (α → Dialogue Call Reply β) → Dialogue Call Reply β
  | .ended a, f => f a
  | .say q next, f => .say q fun r => (next r).bind f

instance : Monad (Dialogue Call Reply) where
  pure := .ended
  bind := Dialogue.bind

/-- Something said to which a failure is one of the answers. -/
def ask {Answer : Type} (q : Call) : ExceptT ε (Dialogue Call (Except ε Answer)) Answer :=
  ExceptT.mk (.say q .ended)

/-! ## Runs -/

/-- What becomes of a dialogue, and of the state, when every answer is one that a store may
give. A dialogue that is stopped has no result. -/
inductive Runs (step : σ → Call → Reply → σ → Prop) :
    Dialogue Call Reply α → σ → Option α → σ → Prop
  | ended (a : α) (s : σ) : Runs step (.ended a) s (some a) s
  | stopped (d : Dialogue Call Reply α) (s : σ) : Runs step d s none s
  | said {q : Call} {next : Reply → Dialogue Call Reply α} {r : Reply} {s t u : σ}
      {result : Option α} : step s q r t → Runs step (next r) t result u →
      Runs step (.say q next) s result u

/-- A dialogue with a store that has one answer to everything. -/
def play (answer : σ → Call → Reply × σ) : Dialogue Call Reply α → σ → α × σ
  | .ended a, s => (a, s)
  | .say q next, s => (next (answer s q).1).play answer (answer s q).2

theorem runs_play {step : σ → Call → Reply → σ → Prop} {answer : σ → Call → Reply × σ}
    (h : ∀ s q, step s q (answer s q).1 (answer s q).2) (d : Dialogue Call Reply α) (s : σ) :
    Runs step d s (some (d.play answer s).1) (d.play answer s).2 := by
  induction d generalizing s with
  | ended a => exact .ended a s
  | say q next ih => exact .said (h s q) (ih _ _)

/-! ## Taking turns -/

/-- What is left of a dialogue behind the answers that were heard. -/
def after : Dialogue Call Reply α → List Reply → Dialogue Call Reply α
  | d, [] => d
  | .ended a, _ :: _ => .ended a
  | .say _ next, r :: heard => (next r).after heard

def asks : Dialogue Call Reply α → Option Call
  | .ended _ => none
  | .say q _ => some q

def result : Dialogue Call Reply α → Option α
  | .ended a => some a
  | .say _ _ => none

/-! ## What a run ensures -/

/-- Wherever the dialogue is stopped, the state is as `meanwhile` says, and so it is at its
end, where its result and the state are as `finally` says. -/
def Ensures (step : σ → Call → Reply → σ → Prop) (meanwhile : σ → Prop)
    (atEnd : α → σ → Prop) : Dialogue Call Reply α → σ → Prop
  | .ended a, s => meanwhile s ∧ atEnd a s
  | .say q next, s =>
      meanwhile s ∧ ∀ r t, step s q r t → Ensures step meanwhile atEnd (next r) t

namespace Ensures

variable {step : σ → Call → Reply → σ → Prop} {meanwhile : σ → Prop} {s : σ}

theorem now {atEnd : α → σ → Prop} {d : Dialogue Call Reply α}
    (h : Ensures step meanwhile atEnd d s) : meanwhile s := by
  cases d with
  | ended a => exact h.1
  | say q next => exact h.1

theorem of_runs {atEnd : α → σ → Prop} {d : Dialogue Call Reply α} {result : Option α} {t : σ}
    (h : Ensures step meanwhile atEnd d s) (hrun : Runs step d s result t) :
    meanwhile t ∧ ∀ a, result = some a → atEnd a t := by
  induction hrun with
  | ended a s =>
      refine ⟨h.1, fun a' ha' => ?_⟩
      cases ha'
      exact h.2
  | stopped d s =>
      refine ⟨h.now, fun a ha => ?_⟩
      cases ha
  | said hstep _ ih => exact ih (h.2 _ _ hstep)

theorem mono {meanwhile' : σ → Prop} {atEnd atEnd' : α → σ → Prop}
    {d : Dialogue Call Reply α} (h : Ensures step meanwhile atEnd d s)
    (hmeanwhile : ∀ t, meanwhile t → meanwhile' t)
    (hend : ∀ a t, meanwhile t → atEnd a t → atEnd' a t) :
    Ensures step meanwhile' atEnd' d s := by
  induction d generalizing s with
  | ended a => exact ⟨hmeanwhile s h.1, hend a s h.1 h.2⟩
  | say q next ih =>
      exact ⟨hmeanwhile s h.1, fun r t hstep => ih r (h.2 r t hstep)⟩

theorem bind {between : α → σ → Prop} {atEnd : β → σ → Prop} {d : Dialogue Call Reply α}
    {f : α → Dialogue Call Reply β} (h : Ensures step meanwhile between d s)
    (hf : ∀ a t, meanwhile t → between a t → Ensures step meanwhile atEnd (f a) t) :
    Ensures step meanwhile atEnd (d >>= f) s := by
  induction d generalizing s with
  | ended a => exact hf a s h.1 h.2
  | say q next ih => exact ⟨h.1, fun r t hstep => ih r (h.2 r t hstep)⟩

end Ensures

/-! ## Programs that can fail -/

/-- How a state is left by a program that has come to some end. -/
def ending (onOk : α → σ → Prop) (onError : ε → σ → Prop) : Except ε α → σ → Prop
  | .ok a => onOk a
  | .error e => onError e

/-- What a run of a program ensures that may end with a failure. -/
structure Secures (step : σ → Call → Reply → σ → Prop) (meanwhile : σ → Prop)
    (onOk : α → σ → Prop) (onError : ε → σ → Prop) (act : ExceptT ε (Dialogue Call Reply) α)
    (s : σ) : Prop where
  ensures : Ensures step meanwhile (ending onOk onError) act.run s

namespace Secures

variable {step : σ → Call → Reply → σ → Prop} {meanwhile : σ → Prop} {s : σ}
  {onOk : α → σ → Prop} {onError : ε → σ → Prop} {act : ExceptT ε (Dialogue Call Reply) α}

theorem of_runs {result : Option (Except ε α)} {t : σ}
    (h : Secures step meanwhile onOk onError act s) (hrun : Runs step act.run s result t) :
    meanwhile t ∧ (∀ a, result = some (.ok a) → onOk a t) ∧
      ∀ e, result = some (.error e) → onError e t :=
  have hend := h.ensures.of_runs hrun
  ⟨hend.1, fun a => hend.2 (.ok a), fun e => hend.2 (.error e)⟩

theorem mono {meanwhile' : σ → Prop} {onOk' : α → σ → Prop} {onError' : ε → σ → Prop}
    (h : Secures step meanwhile onOk onError act s)
    (hmeanwhile : ∀ t, meanwhile t → meanwhile' t)
    (hok : ∀ a t, meanwhile t → onOk a t → onOk' a t)
    (herror : ∀ e t, meanwhile t → onError e t → onError' e t) :
    Secures step meanwhile' onOk' onError' act s where
  ensures := h.ensures.mono hmeanwhile fun result t ht hresult => by
    cases result with
    | ok a => exact hok a t ht hresult
    | error e => exact herror e t ht hresult

theorem mono_ok {onOk' : α → σ → Prop} (h : Secures step meanwhile onOk onError act s)
    (hok : ∀ a t, meanwhile t → onOk a t → onOk' a t) :
    Secures step meanwhile onOk' onError act s :=
  h.mono (fun _ ht => ht) hok fun _ _ _ he => he

theorem ok {a : α} (h : meanwhile s) (ha : onOk a s) :
    Secures step meanwhile onOk onError (pure a) s := ⟨h, ha⟩

theorem fail {e : ε} (h : meanwhile s) (he : onError e s) :
    Secures step meanwhile onOk onError (throw e : ExceptT ε (Dialogue Call Reply) α) s :=
  ⟨h, he⟩

theorem lift (x : Except ε α) (h : meanwhile s) (hok : ∀ a, x = .ok a → onOk a s)
    (herror : ∀ e, x = .error e → onError e s) :
    Secures step meanwhile onOk onError
      (liftM x : ExceptT ε (Dialogue Call Reply) α) s := by
  cases x with
  | ok a => exact ⟨h, hok a rfl⟩
  | error e => exact ⟨h, herror e rfl⟩

theorem bind {onOk' : β → σ → Prop} {next : α → ExceptT ε (Dialogue Call Reply) β}
    (h : Secures step meanwhile onOk onError act s)
    (hnext : ∀ a t, meanwhile t → onOk a t →
      Secures step meanwhile onOk' onError (next a) t) :
    Secures step meanwhile onOk' onError (act >>= next) s where
  ensures := h.ensures.bind fun result t ht hresult => by
    cases result with
    | ok a => exact (hnext a t ht hresult).ensures
    | error e => exact ⟨ht, hresult⟩

theorem adapt {f : ε → ε'} {onError : ε' → σ → Prop}
    (h : Secures step meanwhile onOk (fun e => onError (f e)) act s) :
    Secures step meanwhile onOk onError (act.adapt f) s where
  ensures := h.ensures.bind fun result t ht hresult => by
    cases result with
    | ok a => exact ⟨ht, hresult⟩
    | error e => exact ⟨ht, hresult⟩

/-- A program whose failure is only looked at. -/
theorem liftRun {onOk' : Except ε α → σ → Prop} {onError' : ε' → σ → Prop}
    (h : Secures step meanwhile (fun a => onOk' (.ok a)) (fun e => onOk' (.error e)) act s) :
    Secures step meanwhile onOk' onError' (ExceptT.lift act.run) s where
  ensures := h.ensures.bind fun result t ht hresult => by
    cases result with
    | ok a => exact ⟨ht, hresult⟩
    | error e => exact ⟨ht, hresult⟩

/-- What is done about a failure. -/
theorem tryCatch {onError' : ε → σ → Prop} {handle : ε → ExceptT ε (Dialogue Call Reply) α}
    (h : Secures step meanwhile onOk onError' act s)
    (hhandle : ∀ e t, meanwhile t → onError' e t →
      Secures step meanwhile onOk onError (handle e) t) :
    Secures step meanwhile onOk onError (tryCatch act handle) s where
  ensures := h.ensures.bind fun result t ht hresult => by
    cases result with
    | ok a => exact ⟨ht, hresult⟩
    | error e => exact (hhandle e t ht hresult).ensures

theorem ask {Answer : Type} {step : σ → Call → Except ε Answer → σ → Prop}
    {onOk : Answer → σ → Prop} {q : Call} (h : meanwhile s)
    (hstep : ∀ r t, step s q r t → meanwhile t ∧ ending onOk onError r t) :
    Secures step meanwhile onOk onError (Dialogue.ask q) s :=
  ⟨h, hstep⟩

/-- What is done for each element of a list, where `passed` holds of the elements that are
left. -/
theorem each {act : α → ExceptT ε (Dialogue Call Reply) PUnit} (passed : List α → σ → Prop)
    (hact : ∀ x rest t, meanwhile t → passed (x :: rest) t →
      Secures step meanwhile (fun _ => passed rest) onError (act x) t) {xs : List α}
    (h : meanwhile s) (hxs : passed xs s) :
    Secures step meanwhile (fun _ => passed []) onError
      (forIn xs PUnit.unit fun x _ => do act x; return .yield PUnit.unit) s := by
  induction xs generalizing s with
  | nil => exact .ok h hxs
  | cons x rest ih =>
      have hx : Secures step meanwhile
          (fun result t => result = ForInStep.yield PUnit.unit ∧ passed rest t) onError
          (do act x; return .yield PUnit.unit) s :=
        (hact x rest s h hxs).bind fun _ t ht hpassed => .ok ht ⟨rfl, hpassed⟩
      rw [List.forIn_cons]
      refine hx.bind ?_
      rintro _ t ht ⟨rfl, hpassed⟩
      exact ih ht hpassed

theorem once {act : α → ExceptT ε (Dialogue Call Reply) PUnit} {x : α}
    {onOk : PUnit → σ → Prop} (h : Secures step meanwhile onOk onError (act x) s) :
    Secures step meanwhile onOk onError
      (forIn [x] PUnit.unit fun x _ => do act x; return .yield PUnit.unit) s := by
  have hx : Secures step meanwhile
      (fun result t => result = ForInStep.yield PUnit.unit ∧ onOk PUnit.unit t) onError
      (do act x; return .yield PUnit.unit) s :=
    h.bind fun _ t ht hok => .ok ht ⟨rfl, hok⟩
  rw [List.forIn_cons]
  refine hx.bind ?_
  rintro _ t ht ⟨rfl, hok⟩
  exact .ok ht hok

end Secures

end Dialogue

end RequestLog.Store
