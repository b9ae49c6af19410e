import RequestLog.Proofs.Store.Dialogue
import RequestLog.Proofs.Store.Kept

/-!
# Stores that carry out what they can

What is asked of a store is done where it can be done and refused where it cannot; and where
statements may fail, any of them may, with whatever a failure may leave behind (`Machine`).
Which texts ask for what, and how the answers are told, is the matter of each store.
-/

namespace RequestLog.Store

open Dialogue

/-- What a store does with what it is asked, and what it may do with it where that fails. -/
structure Machine (State Deed : Type) where
  does : State → Deed → Option State
  Partly : State → Deed → State → Prop

namespace Machine

variable {State Deed Call Answer ε : Type} (m : Machine State Deed) (deed : Call → Deed)
  (told : State → Deed → Answer) (refusal : ε)

def answer (s : State) (q : Call) : Except ε Answer × State :=
  match m.does s (deed q) with
  | some t => (.ok (told s (deed q)), t)
  | none => (.error refusal, s)

def Fails (s : State) (q : Call) (reply : Except ε Answer) (t : State) : Prop :=
  (∃ e, reply = .error e) ∧ m.Partly s (deed q) t

def step (faults : Prop) (s : State) (q : Call) (reply : Except ε Answer) (t : State) : Prop :=
  (reply, t) = m.answer deed told refusal s q ∨ faults ∧ m.Fails deed s q reply t

variable {m deed told refusal} {faults : Prop} {q : Call} {s s₁ : State}
  {meanwhile : State → Prop} {onOk : Answer → State → Prop} {onError : ε → State → Prop}

theorem step_of_does {d : Deed} {t : State} (hd : deed q = d) (hdoes : m.does s d = some t) :
    m.step deed told refusal faults s q (.ok (told s d)) t := by
  subst hd
  exact .inl (by rw [answer, hdoes])

/-- What is asked is done, or refused, or fails. -/
theorem step_cases {reply : Except ε Answer} {t : State}
    (h : m.step deed told refusal faults s q reply t) :
    m.does s (deed q) = some t ∨ t = s ∨ m.Partly s (deed q) t := by
  obtain h | ⟨-, -, hpartly⟩ := h
  · unfold answer at h
    split at h
    · next hdoes => exact .inl (hdoes.trans (congrArg some (Prod.mk.inj h).2.symm))
    · exact .inr (.inl (Prod.mk.inj h).2)
  · exact .inr (.inr hpartly)

/-- What is asked and can be done: it is done, or it fails. -/
theorem secures_ask (hs : meanwhile s) (hdoes : m.does s (deed q) = some s₁)
    (hok : meanwhile s₁ ∧ onOk (told s (deed q)) s₁)
    (herror : ∀ e t, faults → m.Partly s (deed q) t → meanwhile t ∧ onError e t) :
    Secures (m.step deed told refusal faults) meanwhile onOk onError (ask q) s := by
  refine Secures.ask hs fun reply t hstep => ?_
  obtain h | ⟨hfaults, ⟨e, rfl⟩, hpartly⟩ := hstep
  · rw [answer, hdoes] at h
    obtain ⟨rfl, rfl⟩ := Prod.mk.inj h
    exact hok
  · exact herror e t hfaults hpartly

/-- What only looks leaves everything as it is. -/
theorem secures_look {d : Deed} (hd : deed q = d) (hdoes : m.does s d = some s)
    (hlook : ∀ t, m.Partly s d t → t = s) :
    Secures (m.step deed told refusal faults) (· = s) (fun a _ => a = told s d)
      (fun _ _ => faults) (ask q) s := by
  subst hd
  exact secures_ask rfl hdoes ⟨rfl, rfl⟩ fun _ t hfaults hpartly => ⟨hlook t hpartly, hfaults⟩

end Machine

def Kept.machine : Machine Kept Deed := ⟨Kept.does, Kept.Partly⟩

def Ledger.machine : Machine Ledger Move := ⟨Ledger.does, Ledger.Partly⟩

end RequestLog.Store
