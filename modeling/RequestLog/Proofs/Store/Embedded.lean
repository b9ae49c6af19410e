import RequestLog.Proofs.Store.Clients
import RequestLog.Proofs.Store.Machine
import RequestLog.Proofs.Store.Repeat
import RequestLog.Proofs.Store.Wording

/-!
# Embedded stores that are set up again

An embedded store is set up in one transaction. Until that is committed, whatever becomes of
its statements, the store is as it was before (`left_of_kept`, `rest_of_inside`), and an
attempt starts only where nothing is there; so what an attempt that fails leaves is the empty
store. A commit that fails has kept nothing; one that succeeds has kept everything, also where
the process is stopped before it hears of that.

The column store is known by its texts, which are read for what they say (`Wording.asked`),
and of its state only what is kept of the schema matters (`Ledger`). The row store has its
engine in this library, so there a site is the connection itself, and what setting up comes to
is computed: `installed` is the database that it leaves.
-/

namespace RequestLog.Store

open Schema Dialogue

/-! ## The embedded column store -/

namespace Duckdb

def session : Session (Dialogue Call Reply) where
  fetch text args := ask (.fetch text args)
  batch text := do let _ ← ask (.batch text)
  close := pure ()

/-- How this store is asked for its tables and its time. -/
def wording : Wording where
  backend := .duckdb
  catalog := "information_schema.tables"
  nameColumn := "table_name"
  own := []
  now := "current_timestamp"

def integer? : Argument → Option Int
  | .integer i | .bigint i => some i
  | _ => none

/-- What is asked of the store. -/
def move : Call → Move
  | .fetch text args => .deed (wording.asked text.toList (args.map integer?))
  | .batch text =>
      if text = "BEGIN TRANSACTION" then .begin
      else if text = "COMMIT" then .commit
      else if text = "ROLLBACK" then .rollback
      else .deed (scripted text)

def told (l : Ledger) : Move → Answer SqlType
  | .deed (.findTable name) =>
      ⟨[("there", .boolean)], [[.bool (l.current.tables.contains name)]]⟩
  | .deed .readVersion =>
      ⟨[("version", .integer)], l.current.version.toList.map fun v => [.int v]⟩
  | _ => .empty

def site : Site where
  backend := .duckdb
  Call := Call
  Reply := Reply
  State := Ledger
  access _ := schemaAccess session
  answer := Ledger.machine.answer move told "refused"
  Fails := Ledger.machine.Fails move
  rest := Ledger.rest
  empty := {}
  kept := Ledger.kept

variable {faults : Prop} {k : Kept}

theorem move_table : move (.fetch tableQuery []) = .deed (.findTable versionTableName) := by
  change Move.deed (wording.asked tableQuery.toList []) = _
  unfold tableQuery
  rw [String.toList_append]
  rfl

theorem move_version : move (.fetch versionQuery []) = .deed .readVersion := by rfl

set_option maxRecDepth 1000 in
theorem move_record : move (.fetch recordText [.integer currentVersion]) =
    .deed (.record currentVersion false) := by rfl

theorem move_script {text : String} (hmade : Making.ofScript? text = some (makings .duckdb)) :
    move (.batch text) = .deed (.make (makings .duckdb)) := by
  have hne : text ∉ ["BEGIN TRANSACTION", "COMMIT", "ROLLBACK"] := by
    intro htext
    have hnone : ∀ text ∈ ["BEGIN TRANSACTION", "COMMIT", "ROLLBACK"],
        Making.ofScript? text = none :=
      List.forall_mem_cons.2 ⟨rfl, List.forall_mem_cons.2 ⟨rfl, List.forall_mem_singleton.2 rfl⟩⟩
    rw [hnone text htext] at hmade
    cases hmade
  simp only [List.mem_cons, List.not_mem_nil, or_false, not_or] at hne
  rw [move, if_neg hne.1, if_neg hne.2.1, if_neg hne.2.2, scripted_of_made hmade]

theorem hasVersions_secured (k : Kept) : Secures (site.step faults) (· = ⟨k, none⟩)
    (fun there _ => there = k.hasVersions) (fun _ _ => faults)
    (schemaAccess session).hasVersions ⟨k, none⟩ := by
  have hlook : ∀ t, Ledger.machine.Partly ⟨k, none⟩ (.deed (.findTable versionTableName)) t →
      t = ⟨k, none⟩ := by
    intro t ht
    obtain ⟨k', hk', rfl⟩ := Ledger.Partly.of_settled ht
    rw [hk'.findTable]
  refine ((Machine.secures_look move_table rfl hlook).bind ?_).adapt
  rintro a t rfl rfl
  exact .ok rfl rfl

theorem version_secured (hk : k.version = none ∨ k.Complete .duckdb)
    (hversions : k.hasVersions = true) :
    Secures (site.step faults) (· = ⟨k, none⟩) (fun v _ => v = k.version ∨ v = none)
      (fun _ _ => faults) (schemaAccess session).version ⟨k, none⟩ := by
  have hlook : ∀ t, Ledger.machine.Partly ⟨k, none⟩ (.deed .readVersion) t → t = ⟨k, none⟩ := by
    intro t ht
    obtain ⟨k', hk', rfl⟩ := Ledger.Partly.of_settled ht
    rw [hk'.readVersion]
  have hdoes : Ledger.machine.does ⟨k, none⟩ (.deed .readVersion) = some ⟨k, none⟩ :=
    Ledger.does_settled (if_pos hversions)
  have hread : ∀ a, a = told ⟨k, none⟩ (.deed .readVersion) →
      (demand (readWhole 32) a).toOption = k.version := by
    rintro a rfl
    obtain hnone | hcomplete := hk
    · simp only [told, Ledger.current, Option.getD_none, hnone]
      rfl
    · simp only [told, Ledger.current, Option.getD_none, hcomplete.version]
      rfl
  have hlifted : Secures (site.step faults) (· = ⟨k, none⟩)
      (fun reply _ => ∀ a, reply = .ok a → a = told ⟨k, none⟩ (.deed .readVersion))
      (fun _ _ => faults) (ExceptT.lift (session.fetch versionQuery []).run :
        Opening (Dialogue Call Reply) (Except String (Answer SqlType))) ⟨k, none⟩ := by
    refine Secures.liftRun ((Machine.secures_look move_version hdoes hlook).mono
      (fun _ ht => ht) (fun a t _ ha b hb => ?_) fun e t _ _ a ha => ?_)
    · cases hb
      exact ha
    · cases ha
  refine hlifted.bind ?_
  rintro reply t rfl hreply
  cases reply with
  | ok a => exact .ok rfl (.inl (hread a (hreply a rfl)))
  | error e => exact .ok rfl (.inr rfl)

/-! ### Setting up in a transaction -/

/-- Before the transaction is over, an empty store stays empty. -/
theorem left_of_kept {l : Ledger} (h : l.kept = {}) : site.Blank l.rest := by
  have hrest : l.rest = {} := by rw [Ledger.rest, h]
  exact ⟨rfl, by rw [hrest]; rfl, fun _ => hrest⟩

theorem batch_secured {text : String} {meanwhile onOk onFault : Ledger → Prop} {l : Ledger}
    (h : Secures (site.step faults) meanwhile (fun _ => onOk) (fun _ => onFault)
      (ask (.batch text) : ExceptT String (Dialogue Call Reply) (Answer SqlType)) l) :
    Secures (site.step faults) meanwhile (fun _ => onOk) (fun _ => onFault)
      (session.batch text) l :=
  h.bind fun _ _ ht hok => .ok ht hok

theorem begin_secured : Secures (site.step faults) (fun t => t.kept = {})
    (fun _ t => t = ⟨{}, some {}⟩) (fun _ _ => faults) (session.batch "BEGIN TRANSACTION") {} := by
  have hmove : move (.batch "BEGIN TRANSACTION") = .begin := rfl
  refine batch_secured (Machine.secures_ask rfl rfl ⟨rfl, rfl⟩ fun e t hfaults hpartly => ?_)
  rw [hmove] at hpartly
  exact ⟨hpartly.kept_of_control nofun, hfaults⟩

theorem rollback_secured {l : Ledger} (hl : l.kept = {}) :
    Secures (site.step faults) (fun t => t.kept = {}) (fun _ _ => True) (fun _ _ => True)
      (session.batch "ROLLBACK") l := by
  have hmove : move (.batch "ROLLBACK") = .rollback := rfl
  refine batch_secured (Secures.ask hl fun reply t hstep => ⟨?_, by cases reply <;> trivial⟩)
  have hcases := Machine.step_cases hstep
  rw [hmove] at hcases
  obtain hdoes | rfl | hpartly := hcases
  · obtain ⟨_, -, rfl⟩ := Option.map_eq_some_iff.1 hdoes
    exact hl
  · exact hl
  · exact (hpartly.kept_of_control nofun).trans hl

theorem commit_secured (hk : k.Complete .duckdb) :
    Secures (site.step faults) (fun t => site.Blank t.rest ∨ site.Ready t.rest)
      (fun _ t => site.Ready t.rest) (fun _ t => faults ∧ t.kept = {})
      (session.batch "COMMIT") ⟨{}, some k⟩ := by
  have hmove : move (.batch "COMMIT") = .commit := rfl
  have hready : site.Ready (Ledger.rest ⟨k, none⟩) := ⟨rfl, hk⟩
  refine batch_secured (Machine.secures_ask (.inl (left_of_kept rfl)) rfl ⟨.inr hready, hready⟩
    fun e t hfaults hpartly => ?_)
  have hkept := Ledger.Partly.kept_of_pending hpartly
  exact ⟨.inl (left_of_kept hkept), hfaults, hkept⟩

/-- What sets the store up does so in the transaction alone. -/
theorem schema_secured {text : String} (hmade : Making.ofScript? text = some (makings .duckdb)) :
    Secures (site.step faults) (fun t => t.kept = {})
      (fun _ t => ∃ k, t = ⟨{}, some k⟩ ∧ k.version = none ∧ k.Furnished .duckdb)
      (fun _ _ => faults) (session.batch text) ⟨{}, some {}⟩ := by
  obtain ⟨k, hdoes, hversion, hfurnished⟩ := Kept.exists_furnished {} .duckdb
  have hdoes : Ledger.machine.does ⟨{}, some {}⟩ (.deed (.make (makings .duckdb))) =
      some ⟨{}, some k⟩ := Ledger.does_pending hdoes
  rw [← move_script hmade] at hdoes
  refine batch_secured (Machine.secures_ask rfl hdoes ⟨rfl, k, rfl, hversion, hfurnished⟩
    fun e t hfaults hpartly => ⟨?_, hfaults⟩)
  exact Ledger.Partly.kept_of_pending hpartly

theorem record_secured (hversion : k.version = none) (hfurnished : k.Furnished .duckdb) :
    Secures (site.step faults) (fun t => t.kept = {})
      (fun _ t => ∃ k, t = ⟨{}, some k⟩ ∧ k.Complete .duckdb) (fun _ _ => faults)
      (session.fetch recordText [.integer currentVersion]) ⟨{}, some k⟩ := by
  have hdoes : Ledger.machine.does ⟨{}, some k⟩ (.deed (.record currentVersion false)) =
      some ⟨{}, some { k with version := some currentVersion }⟩ :=
    Ledger.does_pending (Kept.does_record hfurnished.hasVersions hversion currentVersion false)
  rw [← move_record] at hdoes
  exact Machine.secures_ask rfl hdoes ⟨rfl, _, rfl, hfurnished.complete⟩
    fun e t hfaults hpartly => ⟨Ledger.Partly.kept_of_pending hpartly, hfaults⟩

theorem install_secured :
    Secures (site.step faults) (fun t => site.Blank t.rest ∨ site.Ready t.rest)
      (fun _ t => site.Ready t.rest) (fun _ t => faults ∧ t.kept = {})
      (schemaAccess session).install {} := by
  obtain ⟨hstatements, hmade⟩ := statements_script (b := .duckdb) (by decide)
  have hact : Secures (site.step faults) (fun t => t.kept = {})
      (fun _ t => ∃ k, t = ⟨{}, some k⟩ ∧ k.Complete .duckdb) (fun _ _ => faults)
      (do
        for text in statements .duckdb do
          (session.batch text).adapt (OpenError.schema .duckdb)
        let _ ← opening (session.fetch recordText [.integer currentVersion]) :
        Opening (Dialogue Call Reply) Unit) ⟨{}, some {}⟩ := by
    rw [hstatements]
    refine (Secures.once (schema_secured hmade).adapt).bind ?_
    rintro - t - ⟨k, rfl, hversion, hfurnished⟩
    exact (record_secured hversion hfurnished).adapt.bind fun _ u hu hcomplete =>
      .ok hu hcomplete
  have htaken : ∀ (e : OpenError) t, t.kept = {} → faults →
      Secures (site.step faults) (fun t => t.kept = {})
        (fun _ t => ∃ k, t = ⟨{}, some k⟩ ∧ k.Complete .duckdb) (fun _ _ => faults)
        (do
          let _ ← ExceptT.lift (session.batch "ROLLBACK").run
          throw e : Opening (Dialogue Call Reply) Unit) t := by
    intro e t ht hfaults
    have hrolled : Secures (site.step faults) (fun t => t.kept = {}) (fun _ _ => True)
        (fun _ _ => faults) (ExceptT.lift (session.batch "ROLLBACK").run :
          Opening (Dialogue Call Reply) (Except String Unit)) t :=
      Secures.liftRun (rollback_secured ht)
    exact hrolled.bind fun _ u hu _ => .fail hu hfaults
  have hquiet : ∀ t : Ledger, t.kept = {} → site.Blank t.rest ∨ site.Ready t.rest :=
    fun t ht => .inl (left_of_kept ht)
  have hfault : ∀ (e : OpenError) (t : Ledger), t.kept = {} → faults → faults ∧ t.kept = {} :=
    fun e t ht hfaults => ⟨hfaults, ht⟩
  unfold schemaAccess inTransaction
  refine (begin_secured.adapt.mono hquiet (fun _ t _ ht => ht) hfault).bind ?_
  rintro - t - rfl
  refine ((hact.tryCatch htaken).mono hquiet (fun _ t _ ht => ht) hfault).bind ?_
  rintro - t - ⟨k, rfl, hcomplete⟩
  exact (commit_secured hcomplete).adapt

theorem eq_of_settled {l : Ledger} (h : site.Settled l) : l = ⟨l.kept, none⟩ := h.symm

theorem site_lawful : site.Lawful where
  backend_access _ := rfl
  rest_settled _ := rfl
  empty_blank := ⟨rfl, rfl, fun _ => rfl⟩
  empty_kept := rfl
  hasVersions _ _ l hl := by
    rw [eq_of_settled hl]
    exact hasVersions_secured l.kept
  version _ _ l hl hversions := by
    have hsettled : site.Settled l := hl.elim (·.settled) (·.settled)
    have hkept : l.kept.version = none ∨ l.kept.Complete .duckdb :=
      hl.imp (·.version) (·.complete)
    rw [eq_of_settled hsettled]
    exact (version_secured hkept hversions).mono_ok fun _ _ _ hv =>
      hv.imp_right fun hnone => ⟨rfl, hnone⟩
  install _ _ l hl := by
    rw [hl.embedded rfl]
    refine install_secured.mono (fun _ ht => ht) (fun _ _ _ h => h)
      fun e t _ h => ⟨h.1, fun _ => ?_⟩
    exact (left_of_kept h.2).embedded rfl

end Duckdb

/-! ## The embedded row store -/

namespace Sqlite

open Relational

def session : Session (Dialogue Statement Reply) where
  run := ask
  close := pure ()

def clock (now : Instant) : Clock (Dialogue Statement Reply) where
  now := pure now
  within _ act := some <$> act

/-- What a statement that has failed may leave behind. In a transaction it may do anything to
what is not committed yet, or end the transaction; outside of one a part of what is defined
may be there. -/
inductive Partly : Connection → Statement → Connection → Prop
  | nothing (c : Connection) (st : Statement) : Partly c st c
  | inside (database before database' : Database) (st : Statement) :
      Partly ⟨database, some before⟩ st ⟨database', some before⟩
  | back (database before : Database) (st : Statement) :
      Partly ⟨database, some before⟩ st ⟨before, none⟩
  | outside {database database' : Database} {definitions : List Definition} (n : Nat) :
      (definitions.take n).foldlM Database.define database = .ok database' →
      Partly ⟨database, none⟩ (.define definitions) ⟨database', none⟩

/-- What is left when nobody is connected any more. -/
def rest (c : Connection) : Connection := ⟨c.before.getD c.database, none⟩

def recorded (db : Database) : Option Int :=
  match db.query versionQuery [] with
  | .ok r => (versionIn r).toOption.getD none
  | .error _ => none

def site : Site where
  backend := .sqlite
  Call := Statement
  Reply := Reply
  State := Connection
  access now := schemaAccess session (clock now)
  answer c st := ((c.run st).1.mapError ofFault, (c.run st).2)
  Fails c st reply c' := (∃ e, reply = .error e) ∧ Partly c st c'
  rest := rest
  empty := ⟨{}, none⟩
  kept c :=
    { tables := c.database.tables.map (·.definition.name)
      indexes := c.database.indexes.map (·.name)
      version := recorded c.database }

variable {faults : Prop} {c c₁ : Connection}

/-- What is said and can be done: it is done, or it fails. -/
theorem secures_run {st : Statement} {r : Result} {meanwhile : Connection → Prop}
    {onOk : Result → Connection → Prop} {onError : PoolError → Connection → Prop}
    (hc : meanwhile c) (hrun : c.run st = (.ok r, c₁)) (hok : meanwhile c₁ ∧ onOk r c₁)
    (herror : ∀ e t, faults → Partly c st t → meanwhile t ∧ onError e t) :
    Secures (site.step faults) meanwhile onOk onError (ask st) c := by
  refine Secures.ask hc fun reply t hstep => ?_
  obtain h | ⟨hfaults, ⟨e, rfl⟩, hpartly⟩ := hstep
  · simp only [site, hrun] at h
    obtain ⟨rfl, rfl⟩ := Prod.mk.inj h
    exact hok
  · exact herror e t hfaults hpartly

/-- What only looks leaves everything as it is. -/
theorem Partly.of_settled {db : Database} {st : Statement} (h : Partly ⟨db, none⟩ st c)
    (hst : ∀ definitions, st ≠ .define definitions) : c = ⟨db, none⟩ := by
  cases h with
  | nothing => rfl
  | @outside _ _ definitions => exact absurd rfl (hst definitions)

theorem table?_isSome (db : Database) (name : String) :
    (db.table? name).isSome = (db.tables.map (·.definition.name)).contains name := by
  rw [Bool.eq_iff_iff, Database.table?, List.find?_isSome, List.contains_iff_mem, List.mem_map]
  simp only [beq_iff_eq]

theorem hasVersions_secured (db : Database) (now : Instant) :
    Secures (site.step faults) (· = ⟨db, none⟩)
      (fun there _ => there = (site.kept ⟨db, none⟩).hasVersions) (fun _ _ => faults)
      (schemaAccess session (clock now)).hasVersions ⟨db, none⟩ := by
  have hlook : Secures (site.step faults) (· = ⟨db, none⟩)
      (fun r _ => r = ⟨["count"], [[.ofBool (db.table? versionTableName).isSome]]⟩)
      (fun _ _ => faults) (ask (.hasTable versionTableName)) ⟨db, none⟩ :=
    secures_run rfl rfl ⟨rfl, rfl⟩ fun e t hfaults hpartly => ⟨hpartly.of_settled nofun, hfaults⟩
  refine (hlook.bind ?_).adapt
  rintro r t rfl rfl
  rw [table?_isSome]
  show Secures _ _ (fun there _ => there = (db.tables.map (·.definition.name)).contains _) _ _ _
  cases (db.tables.map (·.definition.name)).contains versionTableName <;> exact .ok rfl rfl

theorem versionIn_of_recorded {db : Database} {v : Int} (h : recorded db = some v) :
    ∃ r, db.query versionQuery [] = .ok r ∧ versionIn r = .ok (some v) := by
  unfold recorded at h
  split at h
  · next r hquery =>
      refine ⟨r, hquery, ?_⟩
      cases hversion : versionIn r with
      | error e =>
          rw [hversion] at h
          cases h
      | ok read =>
          rw [hversion] at h
          exact congrArg Except.ok h
  · cases h

/-- What the client makes of an answer is told by the answer alone. -/
theorem read_version (r : Result) :
    (match firstValue? r with
      | some v => some <$> liftM (demandVersion v)
      | none => return none : ExceptT PoolError (Dialogue Statement Reply) (Option Int)) =
      liftM (versionIn r) := by
  unfold versionIn
  cases firstValue? r with
  | none => rfl
  | some v =>
      dsimp only
      cases demandVersion v <;> rfl

theorem version_secured {db : Database} {v : Int} (h : recorded db = some v) (now : Instant) :
    Secures (site.step faults) (· = ⟨db, none⟩) (fun read _ => read = some v) (fun _ _ => faults)
      (schemaAccess session (clock now)).version ⟨db, none⟩ := by
  obtain ⟨r, hquery, hread⟩ := versionIn_of_recorded h
  have hrun : Connection.run ⟨db, none⟩ (.query versionQuery []) = (.ok r, ⟨db, none⟩) :=
    congrArg (·, _) hquery
  have hlook : Secures (site.step faults) (· = ⟨db, none⟩) (fun a _ => a = r)
      (fun _ _ => faults) (ask (.query versionQuery [])) ⟨db, none⟩ :=
    secures_run rfl hrun ⟨rfl, rfl⟩ fun e t hfaults hpartly =>
      ⟨hpartly.of_settled nofun, hfaults⟩
  have hend : Secures (site.step faults) (· = ⟨db, none⟩) (fun read _ => read = some v)
      (fun _ _ => faults)
      (liftM (versionIn r) : ExceptT PoolError (Dialogue Statement Reply) (Option Int))
      ⟨db, none⟩ := by
    rw [hread]
    exact .ok rfl rfl
  rw [← read_version] at hend
  refine (hlook.bind ?_).adapt
  rintro a t rfl rfl
  exact hend

/-! ### Setting up in a transaction -/

def made : Database := ((schema .sqlite).foldlM Database.define {}).toOption.getD {}

/-- The database that is set up at some time. -/
def installed (now : Instant) : Database :=
  made.withRows versionTableName [[.int 1, .int currentVersion, .int now.micros]]

theorem insert_record (now : Instant) :
    Connection.run ⟨made, some {}⟩ (record now) = (.ok .empty, ⟨installed now, some {}⟩) := rfl

theorem installed_ready (now : Instant) : site.Ready ⟨installed now, none⟩ where
  settled := rfl
  complete := { tables := fun _ hname => hname, indexes := fun _ hname => hname, version := rfl }

theorem rest_of_inside {database before : Database} {st : Statement}
    (h : Partly ⟨database, some before⟩ st c) : rest c = ⟨before, none⟩ := by
  cases h <;> rfl

/-- Taking a transaction back leaves what was there before it, whether that succeeds or not. -/
theorem rest_of_rollback {reply : Reply} (h : site.step faults c .rollback reply c₁) :
    rest c₁ = rest c := by
  obtain h | ⟨-, -, hpartly⟩ := h
  · obtain ⟨database, before⟩ := c
    cases before <;> cases h <;> rfl
  · cases hpartly <;> rfl

theorem blank_of_rest (h : rest c = ⟨{}, none⟩) : site.Blank (rest c) := by
  rw [h]
  exact ⟨rfl, rfl, fun _ => rfl⟩

theorem execute_secured {st : Statement} {meanwhile onOk onFault : Connection → Prop}
    (h : Secures (site.step faults) meanwhile (fun _ => onOk) (fun _ => onFault)
      (ask st : ExceptT PoolError (Dialogue Statement Reply) Result) c) :
    Secures (site.step faults) meanwhile (fun _ => onOk) (fun _ => onFault)
      (execute session st) c :=
  h.adapt.bind fun _ _ ht hok => .ok ht hok

/-- Until it is committed, a step of the transaction leaves an empty store empty. -/
theorem secures_inside {database : Database} {st : Statement} {r : Result}
    (hrun : Connection.run ⟨database, some {}⟩ st = (.ok r, c₁)) (hrest : rest c₁ = ⟨{}, none⟩) :
    Secures (site.step faults) (fun t => rest t = ⟨{}, none⟩) (fun _ t => t = c₁)
      (fun _ _ => faults) (ask st) ⟨database, some {}⟩ :=
  secures_run rfl hrun ⟨hrest, rfl⟩ fun _ _ hfaults hpartly => ⟨rest_of_inside hpartly, hfaults⟩

theorem begin_secured : Secures (site.step faults) (fun t => rest t = ⟨{}, none⟩)
    (fun _ t => t = ⟨{}, some {}⟩) (fun _ _ => faults) (ask .begin) ⟨{}, none⟩ := by
  refine secures_run rfl rfl ⟨rfl, rfl⟩ fun e t hfaults hpartly => ⟨?_, hfaults⟩
  rw [hpartly.of_settled nofun]
  rfl

theorem commit_secured (now : Instant) :
    Secures (site.step faults) (fun t => site.Blank (rest t) ∨ site.Ready (rest t))
      (fun _ t => site.Ready (rest t)) (fun _ t => faults ∧ rest t = ⟨{}, none⟩) (ask .commit)
      ⟨installed now, some {}⟩ := by
  have hready : site.Ready (rest ⟨installed now, none⟩) := installed_ready now
  refine secures_run (.inl (blank_of_rest rfl)) rfl ⟨.inr hready, hready⟩
    fun e t hfaults hpartly => ?_
  have hrest := rest_of_inside hpartly
  exact ⟨.inl (blank_of_rest hrest), hfaults, hrest⟩

/-- What is done in the transaction, up to its end. -/
theorem fill_secured (now : Instant) :
    Secures (site.step faults) (fun t => rest t = ⟨{}, none⟩)
      (fun _ t => t = ⟨installed now, some {}⟩) (fun _ _ => faults)
      (do
        let _ ← (session.run (.define (schema .sqlite))).adapt fun e =>
          OpenError.schema .sqlite e.message
        let now ← (clock now).now
        execute session (record now) : Opening (Dialogue Statement Reply) Unit)
      ⟨{}, some {}⟩ := by
  have hdefined : Secures (site.step faults) (fun t => rest t = ⟨{}, none⟩)
      (fun _ t => t = ⟨made, some {}⟩) (fun _ _ => faults)
      (ask (.define (schema .sqlite)) : ExceptT PoolError (Dialogue Statement Reply) Result)
      ⟨{}, some {}⟩ := secures_inside rfl rfl
  have hrecorded : Secures (site.step faults) (fun t => rest t = ⟨{}, none⟩)
      (fun _ t => t = ⟨installed now, some {}⟩) (fun _ _ => faults)
      (execute session (record now)) ⟨made, some {}⟩ :=
    execute_secured (secures_inside (insert_record now) rfl)
  refine hdefined.adapt.bind ?_
  rintro - t - rfl
  exact hrecorded

theorem install_secured (now : Instant) :
    Secures (site.step faults) (fun t => site.Blank (rest t) ∨ site.Ready (rest t))
      (fun _ t => site.Ready (rest t)) (fun _ t => faults ∧ rest t = ⟨{}, none⟩)
      (schemaAccess session (clock now)).install ⟨{}, none⟩ := by
  have hquiet : ∀ t : Connection, rest t = ⟨{}, none⟩ →
      site.Blank (rest t) ∨ site.Ready (rest t) := fun t ht => .inl (blank_of_rest ht)
  have hfault : ∀ (e : OpenError) (t : Connection), rest t = ⟨{}, none⟩ → faults →
      faults ∧ rest t = ⟨{}, none⟩ := fun e t ht hfaults => ⟨hfaults, ht⟩
  have htaken : ∀ (e : OpenError) (t : Connection),
      site.Blank (rest t) ∨ site.Ready (rest t) → faults ∧ rest t = ⟨{}, none⟩ →
      Secures (site.step faults) (fun t => site.Blank (rest t) ∨ site.Ready (rest t))
        (fun _ t => site.Ready (rest t)) (fun _ t => faults ∧ rest t = ⟨{}, none⟩)
        (do
          let _ ← ExceptT.lift (session.run .rollback).run
          throw e : Opening (Dialogue Statement Reply) Unit) t := by
    intro e t ht hfault
    have hrolled : Secures (site.step faults)
        (fun t => site.Blank (rest t) ∨ site.Ready (rest t))
        (fun _ t => rest t = ⟨{}, none⟩) (fun _ t => faults ∧ rest t = ⟨{}, none⟩)
        (ExceptT.lift (session.run .rollback).run :
          Opening (Dialogue Statement Reply) (Except PoolError Result)) t := by
      refine Secures.liftRun (Secures.ask ht fun reply u hstep => ?_)
      have hrest : rest u = ⟨{}, none⟩ := (rest_of_rollback hstep).trans hfault.2
      exact ⟨hquiet u hrest, by cases reply <;> exact hrest⟩
    exact hrolled.bind fun _ u hu hrest => .fail hu ⟨hfault.1, hrest⟩
  unfold schemaAccess inTransaction
  refine ((execute_secured begin_secured).mono hquiet (fun _ _ _ h => h) hfault).bind ?_
  rintro - t - rfl
  refine Secures.tryCatch (((fill_secured now).mono hquiet (fun _ _ _ h => h) hfault).bind ?_)
    htaken
  rintro - t - rfl
  exact execute_secured (commit_secured now)

theorem eq_of_settled {c : Connection} (h : site.Settled c) : c = ⟨c.database, none⟩ := by
  obtain ⟨database, before⟩ := c
  obtain rfl : none = before := congrArg Connection.before h
  rfl

theorem site_lawful : site.Lawful where
  backend_access _ := rfl
  rest_settled _ := rfl
  empty_blank := ⟨rfl, rfl, fun _ => rfl⟩
  empty_kept := rfl
  hasVersions _ now c hc := by
    rw [eq_of_settled hc]
    exact hasVersions_secured c.database now
  version _ now c hc hversions := by
    obtain hblank | hready := hc
    · rw [hblank.embedded rfl] at hversions
      cases hversions
    · rw [eq_of_settled hready.settled]
      exact (version_secured hready.complete.version now).mono_ok fun _ _ _ hv =>
        .inl (hv.trans hready.complete.version.symm)
  install _ now c hc := by
    rw [hc.embedded rfl]
    exact (install_secured now).mono (fun _ ht => ht) (fun _ _ _ h => h)
      fun _ _ _ h => ⟨h.1, fun _ => h.2⟩

end Sqlite

end RequestLog.Store
