import RequestLog.Proofs.Store.Dialogue
import RequestLog.Proofs.Store.Kept
import RequestLog.Store.Executor

/-!
# Setting a store up again

A store may fail to carry out any statement, and the process that sets it up may be stopped
at any point; then the store is set up by a later attempt. What there is behind any number
of such attempts is either ready or blank, that is, without a version on record
(`Site.Ready`, `Site.Blank`). A store that is blank is set up by the next attempt in which
nothing fails, and one that is ready is left as it is by every attempt, whatever fails.

An embedded store that is blank is empty: its transactions leave nothing of an attempt that
failed. A server may be blank with any of the tables there, the table of the version among
them, and is set up once more because no version is on record.

A `Site` is a client together with the store that it sets up. `Site.Lawful` says what each of
the client's three dealings does there, and all that follows is proved from that alone.
-/

namespace RequestLog.Store

open Dialogue

/-- A store and the client that sets it up. -/
structure Site where
  backend : Backend
  Call : Type
  Reply : Type
  State : Type
  /-- The client at some time of its clock. -/
  access : Instant → SchemaAccess (Dialogue Call Reply)
  /-- What the store does where nothing fails. -/
  answer : State → Call → Reply × State
  /-- What it may do where a statement fails. -/
  Fails : State → Call → Reply → State → Prop
  /-- What is left in the store when nobody is connected any more. -/
  rest : State → State
  /-- A store in which nothing is yet. -/
  empty : State
  kept : State → Kept

namespace Site

variable (x : Site)

def step (faults : Prop) (s : x.State) (q : x.Call) (r : x.Reply) (t : x.State) : Prop :=
  (r, t) = x.answer s q ∨ faults ∧ x.Fails s q r t

def migration (now : Instant) : Dialogue x.Call x.Reply (Except OpenError Unit) :=
  (x.access now).migrate.run

/-- An attempt to set a store up in which nothing fails: its result, and what is left. -/
def attempt (now : Instant) (s : x.State) : Except OpenError Unit × x.State :=
  let played := (x.migration now).play x.answer s
  (played.1, x.rest played.2)

/-- An attempt in which any statement may fail, and which has no result where it is stopped. -/
def Attempted (s : x.State) (result : Option (Except OpenError Unit)) (t : x.State) : Prop :=
  ∃ now u, Runs (x.step True) (x.migration now) s result u ∧ t = x.rest u

/-- What a store can be like behind attempts to set it up. -/
inductive Reached : x.State → Prop
  | empty : Reached x.empty
  | attempted {s t : x.State} {result : Option (Except OpenError Unit)} :
      Reached s → x.Attempted s result t → Reached t

/-- Nobody is in the middle of anything. -/
def Settled (s : x.State) : Prop := x.rest s = s

structure Blank (s : x.State) : Prop where
  settled : x.Settled s
  version : (x.kept s).version = none
  embedded : repairs x.backend = false → s = x.empty

structure Ready (s : x.State) : Prop where
  settled : x.Settled s
  complete : (x.kept s).Complete x.backend

/-- What the dealings of a client with its store come to. -/
structure Lawful : Prop where
  backend_access : ∀ now, (x.access now).backend = x.backend
  rest_settled : ∀ s, x.Settled (x.rest s)
  empty_blank : x.Blank x.empty
  empty_kept : x.kept x.empty = {}
  hasVersions : ∀ faults now s, x.Settled s →
    Secures (x.step faults) (· = s) (fun there _ => there = (x.kept s).hasVersions)
      (fun _ _ => faults) (x.access now).hasVersions s
  /-- The one embedded store that takes a version it could not read for none. -/
  version : ∀ faults now s, x.Blank s ∨ x.Ready s → (x.kept s).hasVersions = true →
    Secures (x.step faults) (· = s)
      (fun v _ => v = (x.kept s).version ∨ repairs x.backend = false ∧ v = none)
      (fun _ _ => faults) (x.access now).version s
  install : ∀ faults now s, x.Blank s →
    Secures (x.step faults) (fun t => x.Blank (x.rest t) ∨ x.Ready (x.rest t))
      (fun _ t => x.Ready (x.rest t))
      (fun _ t => faults ∧ (repairs x.backend = false → x.rest t = s)) (x.access now).install s

variable {x}

theorem Blank.rest {s : x.State} (h : x.Blank s) : x.rest s = s := h.settled

/-- What an attempt comes to where a store is blank. -/
theorem Lawful.migrate_blank (hx : x.Lawful) {s : x.State} (hs : x.Blank s) (faults : Prop)
    (now : Instant) :
    Secures (x.step faults) (fun t => x.Blank (x.rest t) ∨ x.Ready (x.rest t))
      (fun _ t => x.Ready (x.rest t))
      (fun _ t => faults ∧ (repairs x.backend = false → x.rest t = s))
      (x.access now).migrate s := by
  have hquiet : ∀ t, t = s → x.Blank (x.rest t) ∨ x.Ready (x.rest t) := by
    rintro t rfl
    exact .inl (by rwa [hs.rest])
  have hfault : ∀ (e : OpenError) t, t = s → faults →
      faults ∧ (repairs x.backend = false → x.rest t = s) := by
    rintro e t rfl hfaults
    exact ⟨hfaults, fun _ => hs.rest⟩
  unfold SchemaAccess.migrate
  refine Secures.bind ((hx.hasVersions faults now s hs.settled).mono hquiet
    (fun there t ht hthere => And.intro ht hthere) hfault) ?_
  rintro there t - ⟨rfl, rfl⟩
  cases hthere : (x.kept t).hasVersions with
  | false => exact hx.install faults now t hs
  | true =>
      have hserver : repairs x.backend = true := by
        by_contra hembedded
        rw [hs.embedded (Bool.not_eq_true _ ▸ hembedded), hx.empty_kept] at hthere
        cases hthere
      refine Secures.bind ((hx.version faults now t (.inl hs) hthere).mono hquiet
        (fun v u hu hv => And.intro hu hv) hfault) ?_
      rintro v u - ⟨rfl, hv⟩
      obtain rfl : v = none := by
        obtain rfl | ⟨-, rfl⟩ := hv
        · exact hs.version
        · rfl
      dsimp only
      rw [hx.backend_access, if_pos hserver]
      exact hx.install faults now u hs

/-- What an attempt comes to where a store is ready. -/
theorem Lawful.migrate_ready (hx : x.Lawful) {s : x.State} (hs : x.Ready s) (faults : Prop)
    (now : Instant) :
    Secures (x.step faults) (· = s) (fun _ _ => True) (fun _ _ => faults)
      (x.access now).migrate s := by
  unfold SchemaAccess.migrate
  refine Secures.bind (hx.hasVersions faults now s hs.settled) ?_
  rintro there t rfl rfl
  rw [hs.complete.hasVersions, if_pos rfl]
  refine Secures.bind (hx.version faults now t (.inr hs) hs.complete.hasVersions) ?_
  rintro v u rfl hv
  obtain rfl | ⟨hembedded, rfl⟩ := hv
  · rw [hs.complete.version]
    exact .ok rfl trivial
  · dsimp only
    rw [hx.backend_access, hembedded]
    exact .ok rfl trivial

/-! ## Attempts -/

theorem step_answer (faults : Prop) (s : x.State) (q : x.Call) :
    x.step faults s q (x.answer s q).1 (x.answer s q).2 := .inl rfl

/-- What an attempt leaves behind where a store is blank. -/
theorem Lawful.attempted_blank (hx : x.Lawful) {s t : x.State} (hs : x.Blank s)
    {result : Option (Except OpenError Unit)} (h : x.Attempted s result t) :
    (x.Blank t ∨ x.Ready t) ∧ (result = some (.ok ()) → x.Ready t) ∧
      ∀ e, result = some (.error e) → repairs x.backend = false → t = s := by
  obtain ⟨now, u, hrun, rfl⟩ := h
  obtain ⟨hleft, hok, herror⟩ := (hx.migrate_blank hs True now).of_runs hrun
  exact ⟨hleft, hok (), fun e he => (herror e he).2⟩

/-- Whatever fails, an attempt leaves a store that is ready as it is. -/
theorem Lawful.attempted_ready (hx : x.Lawful) {s t : x.State} (hs : x.Ready s)
    {result : Option (Except OpenError Unit)} (h : x.Attempted s result t) : t = s := by
  obtain ⟨now, u, hrun, rfl⟩ := h
  obtain ⟨rfl, -⟩ := (hx.migrate_ready hs True now).of_runs hrun
  exact hs.settled

/-- An attempt in which nothing fails sets up a store that is blank. -/
theorem Lawful.attempt_of_blank (hx : x.Lawful) {s : x.State} (hs : x.Blank s) (now : Instant) :
    (x.attempt now s).1 = .ok () ∧ x.Ready (x.attempt now s).2 := by
  have hrun := runs_play (x.step_answer False) (x.migration now) s
  obtain ⟨-, hok, herror⟩ := (hx.migrate_blank hs False now).of_runs hrun
  unfold attempt
  match hresult : ((x.migration now).play x.answer s).1 with
  | .ok () => exact ⟨rfl, hok () (congrArg some hresult)⟩
  | .error e => exact (herror e (congrArg some hresult)).1.elim

/-- One that is ready stays as it is. -/
theorem Lawful.attempt_of_ready (hx : x.Lawful) {s : x.State} (hs : x.Ready s) (now : Instant) :
    x.attempt now s = (.ok (), s) := by
  have hrun := runs_play (x.step_answer False) (x.migration now) s
  obtain ⟨hsame, -, herror⟩ := (hx.migrate_ready hs False now).of_runs hrun
  refine Prod.ext ?_ ((congrArg x.rest hsame).trans hs.settled)
  unfold attempt
  match hresult : ((x.migration now).play x.answer s).1 with
  | .ok () => rfl
  | .error e => exact (herror e (congrArg some hresult)).elim

theorem Lawful.attempt_ready (hx : x.Lawful) {s : x.State} (hs : x.Blank s ∨ x.Ready s)
    (now : Instant) : (x.attempt now s).1 = .ok () ∧ x.Ready (x.attempt now s).2 := by
  obtain hs | hs := hs
  · exact hx.attempt_of_blank hs now
  · rw [hx.attempt_of_ready hs now]
    exact ⟨rfl, hs⟩

/-- Behind any attempts a store is blank or ready. -/
theorem Lawful.reached (hx : x.Lawful) {s : x.State} (h : x.Reached s) :
    x.Blank s ∨ x.Ready s := by
  induction h with
  | empty => exact .inl hx.empty_blank
  | attempted _ hattempted ih =>
      obtain hs | hs := ih
      · exact (hx.attempted_blank hs hattempted).1
      · exact .inr (hx.attempted_ready hs hattempted ▸ hs)

end Site

end RequestLog.Store
