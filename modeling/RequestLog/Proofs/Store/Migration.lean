import RequestLog.Proofs.Store.Conversation
import RequestLog.Store.Migration

/-!
# What a store is taken for when it is opened

A client asks its store whether the table of the version is there, and if so which version
it records. What it hears is one of six things (`Situation`), and what it does next is
settled by the situation and the backend alone (`decision`): set the store up, take it as
it is, or give up.

A store counts as set up on evidence in two cases: everything that sets it up was said in
this very run and was answered well (`Client.Installed`), or a version was read that is not
too new (`Client.Recorded`). The embedded stores let one more case pass. Both take a table
of the version without a record for a store that is up to date, and the one of the two
that takes a version it could not read for none does the same with that; the servers are
set up once more in the first case and fail in the second.

How a client talks with its store is described by a `Client`, and `Client.Lawful` says that
its three dealings are what the description says they are. All that follows is proved from
that alone.
-/

namespace RequestLog.Store

/-- What a store tells about the version of its schema. -/
inductive Situation where
  /-- Whether there is a table of the version could not be learned. -/
  | untold (e : OpenError)
  | noTable
  | noRecord
  | recorded (version : Int)
  | unread (e : OpenError)

def Situation.ofVersion : Except OpenError (Option Int) → Situation
  | .ok none => .noRecord
  | .ok (some v) => .recorded v
  | .error e => .unread e

inductive Decision where
  | install
  | accept
  | refuse (e : OpenError)

/-- The decision of one backend is that of another, up to the words it is told in. -/
inductive Decision.Same : Decision → Decision → Prop where
  | install : Same .install .install
  | accept : Same .accept .accept
  | refuse (e e' : OpenError) : Same (.refuse e) (.refuse e')

def decision (b : Backend) : Situation → Decision
  | .untold e => .refuse e
  | .noTable => .install
  | .noRecord => if repairs b then .install else .accept
  | .recorded v => if Schema.currentVersion < v then .refuse (tooNew b v) else .accept
  | .unread e => if b = .duckdb then .accept else .refuse e

/-- What a backend lets pass without evidence. -/
def overlooks (b : Backend) : Situation → Prop
  | .noRecord => repairs b = false
  | .unread _ => b = .duckdb
  | .untold _ | .noTable | .recorded _ => False

/-- Where neither of two backends lets anything pass, they decide alike. -/
theorem decision_same {b b' : Backend} {situation : Situation}
    (h : ¬ overlooks b situation) (h' : ¬ overlooks b' situation) :
    (decision b situation).Same (decision b' situation) := by
  cases situation with
  | untold e => exact .refuse e e
  | noTable => exact .install
  | noRecord =>
      simp only [overlooks, Bool.not_eq_false] at h h'
      simpa only [decision, h, h', if_true] using Decision.Same.install
  | recorded v =>
      simp only [decision]
      split
      · exact .refuse ..
      · exact .accept
  | unread e =>
      simp only [overlooks] at h h'
      simpa only [decision, h, h', if_false] using Decision.Same.refuse e e

/-- What is taken for set up was recorded in a version that is not too new, or let pass. -/
theorem accepted {b : Backend} {situation : Situation} (h : decision b situation = .accept) :
    (∃ v ≤ Schema.currentVersion, situation = .recorded v) ∨ overlooks b situation := by
  unfold decision at h
  split at h
  · cases h
  · cases h
  · split at h
    · cases h
    · next hb => exact .inr (Bool.eq_false_iff.2 hb)
  · next v =>
      split at h
      · cases h
      · next hv => exact .inl ⟨v, Int.not_lt.1 hv, rfl⟩
  · split at h
    · next hb => exact .inr hb
    · cases h

/-- What a client makes of the version it asked for: DuckDB's takes a version that it could
not read for none. -/
def heeded (b : Backend) (version : Except OpenError (Option Int)) :
    Except OpenError (Option Int) :=
  match version with
  | .ok v => .ok v
  | .error e => if b = .duckdb then .ok none else .error e

theorem heeded_of_ne {b : Backend} (h : b ≠ .duckdb) (version : Except OpenError (Option Int)) :
    heeded b version = version := by
  cases version with
  | ok v => rfl
  | error e => exact if_neg h

/-- How a client talks with its store while it opens it. -/
structure Client where
  backend : Backend
  Call : Type
  Reply : Type
  access : Respondent Call Reply → SchemaAccess (Talk Call Reply)
  /-- What asks for the table of the version, and what the answer says. -/
  asksTable : Call → Prop
  table : Reply → Except OpenError Bool
  /-- What asks for the version, and what the answer says. -/
  asksVersion : Call → Prop
  version : Reply → Except OpenError (Option Int)
  /-- What sets the store up, in this order, and when it has succeeded. -/
  installs : List (Call → Prop)
  done : Reply → Prop

namespace Client

/-- One thing is said, and its answer read; or there is nothing that could be said. -/
def Asks {Call Reply α : Type} (store : Respondent Call Reply) (asks : Call → Prop)
    (read : Reply → Except OpenError α) (act : Opening (Talk Call Reply) α) : Prop :=
  ∀ said,
    (∃ q, asks q ∧ outcome act said = (read (store said q), said ++ [(q, store said q)])) ∨
    ((∀ q, ¬ asks q) ∧ ∃ e, outcome act said = (.error e, said))

/-- The end of a conversation is all that sets the store up, answered well. -/
def Installed (c : Client) (said : Conversation c.Call c.Reply) : Prop :=
  ∃ before parts, said = before ++ parts ∧ Went c.done c.installs parts

/-- A version was read in a conversation. -/
def Recorded (c : Client) (said : Conversation c.Call c.Reply) (v : Int) : Prop :=
  ∃ q answer, (q, answer) ∈ said ∧ c.asksVersion q ∧ c.version answer = .ok (some v)

theorem Installed.length_le {c : Client} {said : Conversation c.Call c.Reply}
    (h : c.Installed said) : c.installs.length ≤ said.length := by
  obtain ⟨before, parts, rfl, hparts⟩ := h
  rw [List.length_append, hparts.length_eq]
  exact Nat.le_add_left ..

structure Lawful (c : Client) : Prop where
  backend_access : ∀ store, (c.access store).backend = c.backend
  hasVersions : ∀ store, Asks store c.asksTable c.table (c.access store).hasVersions
  version : ∀ store, Asks store c.asksVersion (fun answer => heeded c.backend (c.version answer))
    (c.access store).version
  /-- A client that could ask for the table can ask for the version. -/
  askable : ∀ q, c.asksTable q → ∃ q', c.asksVersion q'
  install : ∀ store, Goes c.done (c.access store).install c.installs

/-- What a store tells behind a conversation, and the conversation with that in it. -/
inductive Tells (c : Client) (store : Respondent c.Call c.Reply)
    (said : Conversation c.Call c.Reply) : Situation → Conversation c.Call c.Reply → Prop where
  | unasked (e : OpenError) : (∀ q, ¬ c.asksTable q) → Tells c store said (.untold e) said
  | untold {q : c.Call} {e : OpenError} : c.asksTable q → c.table (store said q) = .error e →
      Tells c store said (.untold e) (said ++ [(q, store said q)])
  | noTable {q : c.Call} : c.asksTable q → c.table (store said q) = .ok false →
      Tells c store said .noTable (said ++ [(q, store said q)])
  | told {q q' : c.Call} {between : Conversation c.Call c.Reply} : c.asksTable q →
      c.table (store said q) = .ok true → between = said ++ [(q, store said q)] →
      c.asksVersion q' →
      Tells c store said (.ofVersion (c.version (store between q')))
        (between ++ [(q', store between q')])

/-- What comes of a decision that was taken behind a conversation. -/
def carriedOut (c : Client) (store : Respondent c.Call c.Reply)
    (said : Conversation c.Call c.Reply) :
    Decision → Except OpenError Unit × Conversation c.Call c.Reply
  | .install => outcome (c.access store).install said
  | .accept => (.ok (), said)
  | .refuse e => (.error e, said)

variable {c : Client} {store : Respondent c.Call c.Reply}

/-- What is done once a table of the version was found. -/
theorem outcome_heeded (said : Conversation c.Call c.Reply)
    (version : Except OpenError (Option Int)) (hb : (c.access store).backend = c.backend) :
    (match heeded c.backend version with
      | .ok (some v) =>
          outcome (if v > Schema.currentVersion then throw (tooNew (c.access store).backend v)
            else pure () : Opening (Talk c.Call c.Reply) Unit) said
      | .ok none =>
          outcome (if repairs (c.access store).backend then (c.access store).install
            else pure ()) said
      | .error e => (.error e, said)) =
    c.carriedOut store said (decision c.backend (.ofVersion version)) := by
  rw [hb]
  match version with
  | .ok none =>
      simp only [heeded, Situation.ofVersion, decision]
      split <;> rfl
  | .ok (some v) =>
      simp only [heeded, Situation.ofVersion, decision, gt_iff_lt]
      split <;> rfl
  | .error e =>
      simp only [heeded, Situation.ofVersion, decision]
      by_cases hduckdb : c.backend = .duckdb
      · simp only [hduckdb, if_true, repairs]
        rfl
      · simp only [hduckdb, if_false]
        rfl

/-- Opening a store is deciding on what it tells. -/
theorem Lawful.migrate_decided (hc : c.Lawful) (store : Respondent c.Call c.Reply)
    (said : Conversation c.Call c.Reply) :
    ∃ situation shown, Tells c store said situation shown ∧
      outcome (c.access store).migrate said =
        c.carriedOut store shown (decision c.backend situation) := by
  unfold SchemaAccess.migrate
  obtain ⟨q, hq, htable⟩ | ⟨hq, e, htable⟩ := hc.hasVersions store said
  · rw [outcome_bind, htable]
    cases hanswer : c.table (store said q) with
    | error e => exact ⟨_, _, .untold hq hanswer, rfl⟩
    | ok there =>
        cases there with
        | false => exact ⟨_, _, .noTable hq hanswer, rfl⟩
        | true =>
            obtain ⟨q', hq'⟩ := hc.askable q hq
            obtain ⟨q', hq', hversion⟩ | ⟨hnone, -⟩ := hc.version store (said ++ [(q, store said q)])
            · refine ⟨_, _, .told hq hanswer rfl hq', ?_⟩
              rw [← outcome_heeded _ _ (hc.backend_access store)]
              simp only [if_true, outcome_bind, hversion]
              cases heeded c.backend (c.version (store (said ++ [(q, store said q)]) q')) with
              | error e => rfl
              | ok v => cases v <;> rfl
            · exact absurd hq' (hnone q')
  · rw [outcome_bind, htable]
    exact ⟨_, _, .unasked e hq, rfl⟩

/-- A version that the store told was read in the conversation. -/
theorem Tells.recorded {said shown : Conversation c.Call c.Reply} {v : Int}
    (h : Tells c store said (.recorded v) shown) : c.Recorded shown v := by
  generalize hsituation : Situation.recorded v = situation at h
  cases h with
  | unasked => cases hsituation
  | untold => cases hsituation
  | noTable => cases hsituation
  | told hq htable hbetween hq' =>
      unfold Situation.ofVersion at hsituation
      split at hsituation
      · cases hsituation
      · next hversion =>
          cases hsituation
          exact ⟨_, _, List.mem_append_right _ (List.mem_singleton_self _), hq', hversion⟩
      · cases hsituation

/-- A store that was opened well was set up in this run, or told a version that is not too
new, or was let pass. -/
theorem Lawful.evidence (hc : c.Lawful) {said shown said' : Conversation c.Call c.Reply}
    {situation : Situation} (htells : Tells c store said situation shown)
    (h : c.carriedOut store shown (decision c.backend situation) = (.ok (), said')) :
    c.Installed said' ∨ (∃ v ≤ Schema.currentVersion, c.Recorded said' v) ∨
      overlooks c.backend situation := by
  cases hdecision : decision c.backend situation with
  | install =>
      rw [hdecision] at h
      obtain ⟨parts, rfl, hparts⟩ := hc.install store shown () said' h
      exact .inl ⟨shown, parts, rfl, hparts⟩
  | accept =>
      rw [hdecision] at h
      cases h
      obtain ⟨v, hv, rfl⟩ | hlet := accepted hdecision
      · exact .inr (.inl ⟨v, hv, htells.recorded⟩)
      · exact .inr (.inr hlet)
  | refuse e =>
      rw [hdecision] at h
      cases h

end Client

end RequestLog.Store
