import RequestLog.Proofs.Store.Migration
import RequestLog.Store.Clickhouse.Client
import RequestLog.Store.Duckdb.Client
import RequestLog.Store.Postgres.Client
import RequestLog.Store.Sqlite.Client

/-!
# What the four clients say to a store that they open

Every client is described here as one that talks with its store, and each description is
proved to be lawful. A setting up is described by all that is said for it, so a client that
left out a statement, or went on behind one that had failed, would not be lawful.

What follows from the laws is then said of any of the four (`Setup`), whatever the store
answers: `migrate_evidence`.
-/

namespace RequestLog.Store

/-- An answer that is not a failure. -/
def Answered {ε α : Type} (reply : Except ε α) : Prop := ∃ a, reply = .ok a

theorem goes_ask {Call ε Answer : Type} (store : Respondent Call (Except ε Answer)) (q : Call) :
    Goes Answered (store.ask q) [(· = q)] :=
  .ask store rfl fun a => ⟨a, rfl⟩

/-! ## The embedded row store -/

namespace Sqlite

open Relational

abbrev Reply := Except PoolError Result

def talking (store : Respondent Statement Reply) : Session (Talk Statement Reply) where
  run := store.ask
  close := pure ()

def clockAt (now : Instant) : Clock (Talk Statement Reply) where
  now := pure now
  within _ act := some <$> act

def tableIn (r : Result) : Except PoolError Bool :=
  match firstValue? r with
  | some v => demandBool v
  | none => .error .noRow

def versionIn (r : Result) : Except PoolError (Option Int) :=
  match firstValue? r with
  | some v => (demandVersion v).map some
  | none => .ok none

def readVersion (reply : Reply) : Except OpenError (Option Int) :=
  (reply >>= versionIn).mapError OpenError.sqlite

def client (now : Instant) : Client where
  backend := .sqlite
  Call := Statement
  Reply := Reply
  access store := schemaAccess (talking store) (clockAt now)
  asksTable st := st = .hasTable Schema.versionTableName
  table reply := (reply >>= tableIn).mapError OpenError.sqlite
  asksVersion st := st = .query versionQuery []
  version := readVersion
  installs :=
    [(· = .begin), (· = .define (Schema.schema .sqlite)), (· = record now), (· = .commit)]
  done := Answered

theorem goes_execute (store : Respondent Statement Reply) (st : Statement) :
    Goes Answered (execute (talking store) st) [(· = st)] :=
  (goes_ask store st).adapt.bind fun _ => .silent () fun _ => rfl

theorem goes_inTransaction (store : Respondent Statement Reply)
    {act : Opening (Talk Statement Reply) Unit} {expected : List (Statement → Prop)}
    (h : Goes Answered act expected) :
    Goes Answered (inTransaction (talking store) act)
      ([(· = .begin)] ++ (expected ++ [(· = .commit)])) :=
  (goes_execute store .begin).bind fun _ =>
    (h.bind fun _ => goes_execute store .commit).rethrow

theorem outcome_version (store : Respondent Statement Reply) (now : Instant)
    (said : Conversation Statement Reply) :
    outcome (schemaAccess (talking store) (clockAt now)).version said =
      (heeded .sqlite (readVersion (store said (.query versionQuery []))),
        said ++ [(.query versionQuery [], store said (.query versionQuery []))]) := by
  rw [heeded_of_ne (by decide)]
  refine outcome_adapt_bind (fun r _ => ?_) said
  unfold versionIn
  cases firstValue? r with
  | none => rfl
  | some v => cases h : demandVersion v <;> simp only [h] <;> rfl

theorem client_lawful (now : Instant) : (client now).Lawful where
  backend_access _ := rfl
  hasVersions _ said := .inl ⟨_, rfl, outcome_adapt_bind (fun r _ => by
    unfold tableIn
    cases firstValue? r <;> rfl) said⟩
  version store said := .inl ⟨_, rfl, outcome_version store now said⟩
  askable _ _ := ⟨_, rfl⟩
  install store :=
    goes_inTransaction store <|
      (goes_ask store (.define (Schema.schema .sqlite))).adapt.bind fun _ =>
        (Goes.silent now fun _ => rfl).bind fun u => goes_execute store (record now)

end Sqlite

/-! ## The row store of a server -/

namespace Postgres

inductive Call where
  | fetch (text : String) (args : List Argument)
  | script (text : String)

abbrev Reply := Except PoolError (Answer SqlType)

def talking (store : Respondent Call Reply) : Session (Talk Call Reply) where
  fetch text args := store.ask (.fetch text args)
  script text := do let _ ← store.ask (.script text)
  close := pure ()

def versionIn (a : Answer SqlType) : Except PoolError (Option Int) :=
  if a.rows.isEmpty then .ok none else (demandInt a).map some

def readVersion (reply : Reply) : Except OpenError (Option Int) :=
  (reply >>= versionIn).mapError OpenError.postgres

def client : Client where
  backend := .postgres
  Call := Call
  Reply := Reply
  access store := schemaAccess (talking store)
  asksTable q := q = .fetch tableQuery []
  table reply := (reply >>= demandBool).mapError OpenError.postgres
  asksVersion q := q = .fetch versionQuery []
  version := readVersion
  installs :=
    (Schema.statements .postgres).map (fun text q => q = .script text) ++
      [(· = .fetch recordText [.int4 Schema.currentVersion])]
  done := Answered

theorem outcome_version (store : Respondent Call Reply) (said : Conversation Call Reply) :
    outcome (schemaAccess (talking store)).version said =
      (heeded .postgres (readVersion (store said (.fetch versionQuery []))),
        said ++ [(.fetch versionQuery [], store said (.fetch versionQuery []))]) := by
  rw [heeded_of_ne (by decide)]
  refine outcome_adapt_bind (fun a _ => ?_) said
  unfold versionIn
  split
  · rfl
  · cases demandInt a <;> rfl

theorem goes_script (store : Respondent Call Reply) (text : String) :
    Goes Answered ((talking store).script text) [(· = .script text)] :=
  (goes_ask store (.script text)).bind fun _ => .silent () fun _ => rfl

theorem client_lawful : client.Lawful where
  backend_access _ := rfl
  hasVersions _ said := .inl ⟨_, rfl, outcome_adapt_bind (fun _ _ => rfl) said⟩
  version store said := .inl ⟨_, rfl, outcome_version store said⟩
  askable _ _ := ⟨_, rfl⟩
  install store :=
    (Goes.forIn fun text => (goes_script store text).adapt).bind fun _ =>
      (goes_ask store (.fetch recordText [.int4 Schema.currentVersion])).adapt.bind
        fun _ => .silent () fun _ => rfl

end Postgres

/-! ## The embedded column store -/

namespace Duckdb

inductive Call where
  | fetch (text : String) (args : List Argument)
  | batch (text : String)

abbrev Reply := Except String (Answer SqlType)

def talking (store : Respondent Call Reply) : Session (Talk Call Reply) where
  fetch text args := store.ask (.fetch text args)
  batch text := do let _ ← store.ask (.batch text)
  close := pure ()

/-- The version in an answer, which has to be an integer of 32 bits where there is any. -/
def versionIn (a : Answer SqlType) : Except String (Option Int) :=
  match a.first? with
  | none => .ok none
  | some _ => (demand (readWhole 32) a).map some

def readVersion (reply : Reply) : Except OpenError (Option Int) :=
  (reply >>= versionIn).mapError OpenError.duckdb

def client : Client where
  backend := .duckdb
  Call := Call
  Reply := Reply
  access store := schemaAccess (talking store)
  asksTable q := q = .fetch tableQuery []
  table reply := (reply >>= demand readBool).mapError OpenError.duckdb
  asksVersion q := q = .fetch versionQuery []
  version := readVersion
  installs :=
    [(· = .batch "BEGIN TRANSACTION")] ++
      ((Schema.statements .duckdb).map (fun text q => q = .batch text) ++
        [(· = .fetch recordText [.integer Schema.currentVersion])] ++
      [(· = .batch "COMMIT")])
  done := Answered

/-- Whatever is wrong with the version, it is taken for none. -/
theorem heeded_versionIn (a : Answer SqlType) :
    heeded .duckdb ((versionIn a).mapError OpenError.duckdb) =
      .ok (demand (readWhole 32) a).toOption := by
  unfold versionIn
  cases hfirst : a.first? with
  | none =>
      simp only [demand, hfirst]
      rfl
  | some t => cases demand (readWhole 32) a <;> rfl

theorem outcome_version (store : Respondent Call Reply) (said : Conversation Call Reply) :
    outcome (schemaAccess (talking store)).version said =
      (heeded .duckdb (readVersion (store said (.fetch versionQuery []))),
        said ++ [(.fetch versionQuery [], store said (.fetch versionQuery []))]) := by
  have hread (reply : Reply) : heeded .duckdb (readVersion reply) = .ok (match reply with
      | .ok a => (demand (readWhole 32) a).toOption
      | .error _ => none) := by
    cases reply with
    | error e => rfl
    | ok a => exact heeded_versionIn a
  rw [hread]
  refine (outcome_bind ..).trans ?_
  rw [outcome_lift_run]
  unfold talking
  simp only [outcome_ask]
  cases store said (.fetch versionQuery []) <;> rfl

theorem goes_batch (store : Respondent Call Reply) (text : String) :
    Goes Answered ((talking store).batch text) [(· = .batch text)] :=
  (goes_ask store (.batch text)).bind fun _ => .silent () fun _ => rfl

theorem goes_inTransaction (store : Respondent Call Reply)
    {act : Opening (Talk Call Reply) Unit} {expected : List (Call → Prop)}
    (h : Goes Answered act expected) :
    Goes Answered (inTransaction (talking store) act)
      ([(· = .batch "BEGIN TRANSACTION")] ++ (expected ++ [(· = .batch "COMMIT")])) :=
  (goes_batch store "BEGIN TRANSACTION").adapt.bind fun _ =>
    h.rethrow.bind fun _ => (goes_batch store "COMMIT").adapt

theorem client_lawful : client.Lawful where
  backend_access _ := rfl
  hasVersions _ said := .inl ⟨_, rfl, outcome_adapt_bind (fun _ _ => rfl) said⟩
  version store said := .inl ⟨_, rfl, outcome_version store said⟩
  askable _ _ := ⟨_, rfl⟩
  install store :=
    goes_inTransaction store <|
      (Goes.forIn fun text => (goes_batch store text).adapt).bind fun _ =>
        (goes_ask store (.fetch recordText [.integer Schema.currentVersion])).adapt.bind
          fun _ => .silent () fun _ => rfl

end Duckdb

/-! ## The column store of a server -/

namespace Clickhouse

abbrev Reply := Except HttpError Response

def talking (store : Respondent Request Reply) : Servers (Talk Request Reply) where
  send := store.ask

def bodyIn (reply : Reply) : Except HttpError Body := reply >>= Response.accepted

def tableIn (body : Body) : Except HttpError Bool :=
  match firstValue demandBool body with
  | .ok (some there) => .ok there
  | .ok none => .error .noRow
  | .error e => .error e

def readVersion (reply : Reply) : Except OpenError (Option Int) :=
  (bodyIn reply >>= firstValue demandInt).mapError OpenError.clickhouse

def Accepted (reply : Reply) : Prop := ∃ body, bodyIn reply = .ok body

section

variable (settings : Config.ClickhouseSettings)

def client : Client where
  backend := .clickhouse
  Call := Request
  Reply := Reply
  access store := schemaAccess (talking store) settings
  asksTable q := request settings (some .typed) tableQuery [] = .ok q
  table reply := (bodyIn reply >>= tableIn).mapError OpenError.clickhouse
  asksVersion q := request settings (some .typed) mergedVersionQuery [] = .ok q
  version := readVersion
  installs :=
    (Schema.statements .clickhouse).map (fun text q => request settings none text [] = .ok q) ++
      [fun q => request settings none recordText [.int 1, .int Schema.currentVersion] = .ok q]
  done := Accepted

variable (store : Respondent Request Reply)

theorem outcome_send {format : Option Format} {text : String} {args : List Argument}
    (said : Conversation Request Reply) :
    outcome (send (talking store) settings format text args) said =
      match request settings format text args with
      | .ok q => (bodyIn (store said q), said ++ [(q, store said q)])
      | .error e => (.error e, said) := by
  unfold send
  rw [outcome_bind, outcome_liftM]
  cases request settings format text args with
  | error e => rfl
  | ok q =>
      show outcome (store.ask q >>= _) said = _
      rw [outcome_bind, outcome_ask]
      cases h : store said q <;> simp only [h] <;> rfl

theorem asks_of_send {α : Type} {format : Option Format} {text : String} {args : List Argument}
    {next : Body → ExceptT HttpError (Talk Request Reply) α} {read : Body → Except HttpError α}
    (h : ∀ body said, outcome (next body) said = (read body, said)) :
    Client.Asks store (fun q => request settings format text args = .ok q)
      (fun reply => (bodyIn reply >>= read).mapError OpenError.clickhouse)
      (opening (send (talking store) settings format text args >>= next)) := by
  intro said
  unfold opening
  rw [outcome_adapt_bind h, outcome_send]
  cases request settings format text args with
  | error e =>
      refine .inr ⟨?_, _, rfl⟩
      intro q hq
      cases hq
  | ok q => exact .inl ⟨q, rfl, rfl⟩

theorem goes_execute (text : String) (args : List Argument) :
    Goes Accepted (execute (talking store) settings text args)
      [fun q => request settings none text args = .ok q] := by
  have hsend : Goes Accepted (send (talking store) settings none text args)
      [fun q => request settings none text args = .ok q] := by
    intro said body said' h
    rw [outcome_send] at h
    split at h
    · next q hq =>
        obtain ⟨hbody, rfl⟩ := Prod.mk.inj h
        exact ⟨_, rfl, .cons ⟨hq, body, hbody⟩ .nil⟩
    · cases h
  exact hsend.bind fun _ => .silent () fun _ => rfl

/-- Only the address of the server may be what cannot be asked. -/
theorem askable {q : Request} (hq : request settings (some .typed) tableQuery [] = .ok q) :
    ∃ q', request settings (some .typed) mergedVersionQuery [] = .ok q' := by
  have hfill : fill mergedVersionQuery.toList [] = .ok mergedVersionQuery.toList := rfl
  unfold request at hq ⊢
  rw [hfill]
  split at hq
  · cases hq
  · split at hq
    · cases hq
    · exact ⟨_, rfl⟩

theorem version_asked :
    Client.Asks store (fun q => request settings (some .typed) mergedVersionQuery [] = .ok q)
      (fun reply => heeded .clickhouse (readVersion reply))
      (schemaAccess (talking store) settings).version := by
  have hread : (fun reply => heeded .clickhouse (readVersion reply)) = readVersion :=
    funext fun reply => heeded_of_ne (by decide) (readVersion reply)
  rw [hread]
  exact asks_of_send settings store fun _ _ => rfl

theorem client_lawful : (client settings).Lawful where
  backend_access _ := rfl
  hasVersions store := asks_of_send settings store fun body said => by
    rw [outcome_bind, outcome_liftM]
    unfold tableIn
    cases firstValue demandBool body with
    | error e => rfl
    | ok there => cases there <;> rfl
  version store := version_asked settings store
  askable _ hq := askable settings hq
  install store :=
    (Goes.forIn fun text => (goes_execute settings store text []).adapt).bind fun _ =>
      (goes_execute settings store recordText [.int 1, .int Schema.currentVersion]).adapt

end

end Clickhouse

/-! ## Any of the four -/

/-- A backend, with what its client knows beside the answers of the store. -/
inductive Setup where
  | sqlite (now : Instant)
  | postgres
  | duckdb
  | clickhouse (settings : Config.ClickhouseSettings)

namespace Setup

def client : Setup → Client
  | .sqlite now => Sqlite.client now
  | .postgres => Postgres.client
  | .duckdb => Duckdb.client
  | .clickhouse settings => Clickhouse.client settings

theorem client_lawful (setup : Setup) : setup.client.Lawful := by
  cases setup with
  | sqlite now => exact Sqlite.client_lawful now
  | postgres => exact Postgres.client_lawful
  | duckdb => exact Duckdb.client_lawful
  | clickhouse settings => exact Clickhouse.client_lawful settings

/-- Whatever a store answers, what is done with it follows from what it told. When it was
opened, it was set up in this very run, or told a version that is not too new, or was let
pass; and apart from what they let pass all four decide alike. -/
theorem migrate_evidence (setup : Setup)
    (store : Respondent setup.client.Call setup.client.Reply) :
    ∃ situation shown, Client.Tells setup.client store [] situation shown ∧
      outcome (setup.client.access store).migrate [] =
        setup.client.carriedOut store shown (decision setup.client.backend situation) ∧
      (∀ said, outcome (setup.client.access store).migrate [] = (.ok (), said) →
        setup.client.Installed said ∨
        (∃ v ≤ Schema.currentVersion, setup.client.Recorded said v) ∨
        overlooks setup.client.backend situation) ∧
      ∀ b, ¬ overlooks setup.client.backend situation → ¬ overlooks b situation →
        (decision setup.client.backend situation).Same (decision b situation) := by
  have hlawful := setup.client_lawful
  obtain ⟨situation, shown, htells, hmigrate⟩ := hlawful.migrate_decided store []
  refine ⟨situation, shown, htells, hmigrate, fun said h => ?_, fun b => decision_same⟩
  exact hlawful.evidence htells (hmigrate.symm.trans h)

end Setup

/-! ### Two runs of the embedded row store -/

namespace Sqlite

open Relational

/-- A database without any tables. -/
def fresh : Respondent Statement Reply
  | _, .hasTable _ => .ok ⟨["count"], [[.int 0]]⟩
  | _, _ => .ok .empty

/-- A database with a table of the version that nothing was put into. -/
def unrecorded : Respondent Statement Reply
  | _, .hasTable _ => .ok ⟨["count"], [[.int 1]]⟩
  | _, _ => .ok .empty

def freshTalk : Conversation Statement Reply :=
  [(.hasTable Schema.versionTableName, .ok ⟨["count"], [[.int 0]]⟩), (.begin, .ok .empty),
   (.define (Schema.schema .sqlite), .ok .empty), (record ⟨0, 0⟩, .ok .empty),
   (.commit, .ok .empty)]

def unrecordedTalk : Conversation Statement Reply :=
  [(.hasTable Schema.versionTableName, .ok ⟨["count"], [[.int 1]]⟩),
   (.query versionQuery [], .ok .empty)]

theorem fresh_installed :
    outcome ((client ⟨0, 0⟩).access fresh).migrate [] = (.ok (), freshTalk) ∧
      (client ⟨0, 0⟩).Installed freshTalk := by
  have hrun : outcome ((client ⟨0, 0⟩).access fresh).migrate [] = (.ok (), freshTalk) := rfl
  have hunasked (reply : Reply) : (.query versionQuery [], reply) ∉ freshTalk := by
    simp [freshTalk, record]
  obtain ⟨situation, shown, htells, -, hevidence, -⟩ :=
    Setup.migrate_evidence (.sqlite ⟨0, 0⟩) fresh
  obtain hinstalled | ⟨v, -, q, reply, hmem, rfl, -⟩ | hlet := hevidence _ hrun
  · exact ⟨hrun, hinstalled⟩
  · exact absurd hmem (hunasked reply)
  · cases htells with
    | unasked => cases hlet
    | untold => cases hlet
    | noTable => cases hlet
    | told hq htable =>
        obtain rfl : _ = Statement.hasTable _ := hq
        cases htable

/-- The database is opened as if it were set up, though nothing was done to it and no version
was read. -/
theorem unrecorded_accepted :
    outcome ((client ⟨0, 0⟩).access unrecorded).migrate [] = (.ok (), unrecordedTalk) ∧
      ¬ (client ⟨0, 0⟩).Installed unrecordedTalk ∧
      ¬ ∃ v, (client ⟨0, 0⟩).Recorded unrecordedTalk v := by
  refine ⟨rfl, ?_, ?_⟩
  · intro hinstalled
    have hlength : 4 ≤ 2 := hinstalled.length_le
    omega
  · rintro ⟨v, q, reply, hmem, rfl, hversion⟩
    have hempty (reply : Reply) (hmem : (.query versionQuery [], reply) ∈ unrecordedTalk) :
        readVersion reply = .ok none := by
      simp only [unrecordedTalk, List.mem_cons, Prod.mk.injEq, reduceCtorEq, false_and,
        true_and, List.not_mem_nil, or_false, false_or] at hmem
      rw [hmem]
      rfl
    cases (hempty reply hmem).symm.trans hversion

end Sqlite

end RequestLog.Store
