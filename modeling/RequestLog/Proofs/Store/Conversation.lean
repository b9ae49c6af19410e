import Mathlib.Data.List.Forall2
import RequestLog.Store.Error

/-!
# Talking with a store

What a client does with a store is a conversation: it says something, the store answers,
and what comes next may depend on all that was said. A store of any behaviour whatever is
a function from the conversation so far and what is said now to its answer
(`Respondent`), so to speak of every store is to speak of every sequence of answers.

A computation over a conversation has an outcome and a conversation behind it
(`outcome`). One that ended well can be taken apart from its end, step by step, and every
step that ended well says what it added to the conversation.
-/

namespace RequestLog.Store

/-- What was said so far, each thing with its answer, the last one last. -/
abbrev Conversation (Call Reply : Type) := List (Call × Reply)

abbrev Respondent (Call Reply : Type) := Conversation Call Reply → Call → Reply

abbrev Talk (Call Reply : Type) := StateM (Conversation Call Reply)

variable {Call Reply ε ε' α β : Type}

def Respondent.answer (store : Respondent Call Reply) (q : Call) : Talk Call Reply Reply :=
  fun said => (store said q, said ++ [(q, store said q)])

/-- Something said to which a failure is one of the answers. -/
def Respondent.ask {Answer : Type} (store : Respondent Call (Except ε Answer)) (q : Call) :
    ExceptT ε (Talk Call (Except ε Answer)) Answer :=
  ExceptT.mk (store.answer q)

def outcome (act : ExceptT ε (Talk Call Reply) α) (said : Conversation Call Reply) :
    Except ε α × Conversation Call Reply :=
  (act.run.run said).run

theorem outcome_bind (act : ExceptT ε (Talk Call Reply) α)
    (next : α → ExceptT ε (Talk Call Reply) β) (said : Conversation Call Reply) :
    outcome (act >>= next) said =
      match outcome act said with
      | (.ok a, said) => outcome (next a) said
      | (.error e, said) => (.error e, said) := by
  unfold outcome ExceptT.run StateT.run Id.run
  simp only [bind, ExceptT.bind, ExceptT.mk, StateT.bind, ExceptT.bindCont]
  cases act said with
  | mk result said => cases result <;> rfl

theorem outcome_tryCatch (act : ExceptT ε (Talk Call Reply) α)
    (handle : ε → ExceptT ε (Talk Call Reply) α) (said : Conversation Call Reply) :
    outcome (tryCatch act handle) said =
      match outcome act said with
      | (.ok a, said) => (.ok a, said)
      | (.error e, said) => outcome (handle e) said := by
  unfold outcome ExceptT.run StateT.run Id.run
  simp only [tryCatch, tryCatchThe, MonadExceptOf.tryCatch, ExceptT.tryCatch, ExceptT.mk, bind,
    StateT.bind]
  cases act said with
  | mk result said => cases result <;> rfl

theorem outcome_adapt (f : ε → ε') (act : ExceptT ε (Talk Call Reply) α)
    (said : Conversation Call Reply) :
    outcome (act.adapt f) said = ((outcome act said).1.mapError f, (outcome act said).2) := by
  unfold outcome ExceptT.run StateT.run Id.run
  delta ExceptT.adapt
  simp only [ExceptT.mk, Functor.map, StateT.map, bind]
  cases act said with
  | mk result said => cases result <;> rfl

theorem outcome_ask {Answer : Type} (store : Respondent Call (Except ε Answer)) (q : Call)
    (said : Conversation Call (Except ε Answer)) :
    outcome (store.ask q) said = (store said q, said ++ [(q, store said q)]) := rfl

/-- Nothing more is said to read what a computation has given. -/
theorem outcome_adapt_bind {f : ε → ε'} {act : ExceptT ε (Talk Call Reply) α}
    {next : α → ExceptT ε (Talk Call Reply) β} {read : α → Except ε β}
    (h : ∀ a said, outcome (next a) said = (read a, said)) (said : Conversation Call Reply) :
    outcome ((act >>= next).adapt f) said =
      (((outcome act said).1 >>= read).mapError f, (outcome act said).2) := by
  rw [outcome_adapt, outcome_bind]
  cases outcome act said with
  | mk result between =>
      cases result with
      | error e => rfl
      | ok a => simp only [h, bind, Except.bind]

/-- A failure that is looked at is one of the results. -/
theorem outcome_lift_run (act : ExceptT ε (Talk Call Reply) α) (said : Conversation Call Reply) :
    outcome (ExceptT.lift act.run : ExceptT ε' (Talk Call Reply) (Except ε α)) said =
      (.ok (outcome act said).1, (outcome act said).2) := rfl

theorem outcome_liftM (x : Except ε α) (said : Conversation Call Reply) :
    outcome (liftM x : ExceptT ε (Talk Call Reply) α) said = (x, said) := rfl

/-! ## What ended well -/

/-- Things were said that are what is expected, in its order, and all were answered well. -/
def Went (done : Reply → Prop) (expected : List (Call → Prop))
    (parts : Conversation Call Reply) : Prop :=
  List.Forall₂ (fun isIt part => isIt part.1 ∧ done part.2) expected parts

/-- When the computation ends well, what it has said went as expected. -/
def Goes (done : Reply → Prop) (act : ExceptT ε (Talk Call Reply) α)
    (expected : List (Call → Prop)) : Prop :=
  ∀ said a said', outcome act said = (.ok a, said') →
    ∃ parts, said' = said ++ parts ∧ Went done expected parts

section

variable {done : Reply → Prop} {act : ExceptT ε (Talk Call Reply) α}
  {expected expected' : List (Call → Prop)}

theorem Goes.silent (x : α) (h : ∀ said, outcome act said = (.ok x, said)) :
    Goes done act [] := by
  intro said a said' hact
  rw [h] at hact
  cases hact
  exact ⟨[], (List.append_nil _).symm, .nil⟩

theorem Goes.bind {next : α → ExceptT ε (Talk Call Reply) β} (hact : Goes done act expected)
    (hnext : ∀ a, Goes done (next a) expected') :
    Goes done (act >>= next) (expected ++ expected') := by
  intro said b said' h
  rw [outcome_bind] at h
  split at h
  · next a between ha =>
      obtain ⟨parts, rfl, hparts⟩ := hact _ _ _ ha
      obtain ⟨parts', rfl, hparts'⟩ := hnext a _ _ _ h
      exact ⟨parts ++ parts', List.append_assoc .., List.rel_append hparts hparts'⟩
  · cases h

theorem Goes.adapt {f : ε → ε'} (hact : Goes done act expected) :
    Goes done (act.adapt f) expected := by
  intro said a said' h
  rw [outcome_adapt] at h
  obtain ⟨hok, rfl⟩ := Prod.mk.inj h
  cases hsaid : outcome act said with
  | mk result between =>
      rw [hsaid] at hok
      cases result with
      | error e => cases hok
      | ok a' => exact hact _ _ _ hsaid

/-- A failure that is thrown again after some more was said has ended no better. -/
theorem Goes.rethrow {after : ε → ExceptT ε (Talk Call Reply) β}
    (hact : Goes done act expected) :
    Goes done (tryCatch act fun e => after e >>= fun _ => throw e) expected := by
  intro said a said' h
  rw [outcome_tryCatch] at h
  split at h
  · next hsaid => exact hact _ _ _ (hsaid.trans h)
  · rw [outcome_bind] at h
    split at h <;> cases h

/-- What is said for each element of a list. -/
theorem Goes.forIn {act : α → ExceptT ε (Talk Call Reply) PUnit} {xs : List α}
    {isIt : α → Call → Prop} (hact : ∀ x, Goes done (act x) [isIt x]) :
    Goes done (forIn xs PUnit.unit fun x _ => do act x; return .yield PUnit.unit)
      (xs.map isIt) := by
  induction xs with
  | nil => exact .silent _ fun _ => rfl
  | cons x rest ih =>
      simp only [List.forIn_cons, bind_assoc, pure_bind]
      exact (hact x).bind fun _ => ih

end

theorem Goes.ask {Answer : Type} {done : Except ε Answer → Prop}
    (store : Respondent Call (Except ε Answer)) {q : Call} {isIt : Call → Prop} (hq : isIt q)
    (hdone : ∀ a, done (.ok a)) : Goes done (store.ask q) [isIt] := by
  intro said a said' h
  rw [outcome_ask] at h
  obtain ⟨hanswer, rfl⟩ := Prod.mk.inj h
  exact ⟨_, rfl, .cons ⟨hq, hanswer ▸ hdone a⟩ .nil⟩

end RequestLog.Store
