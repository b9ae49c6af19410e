import RequestLog.Store.Service

/-!
# How opening a store ends

Whoever opens a store asks files, servers and engines, and any of them may answer anything.
What can be said of how it ends is what holds in every world it is run in: `Ends` says it of
what is given back and of the failures, and of nothing else.

A failure of the world is passed on as one of the store that had it. Only what the settings
leave open, and a url that is none, is a fault of the configuration (`RowStore.init_ends`,
`ColumnStore.init_ends`).
-/

namespace RequestLog

namespace Store

variable {σ ε ε' α β : Type}

/-- What holds of all that a program can give. -/
def Gives (P : α → Prop) (act : StateM σ α) : Prop := ∀ w, P (act.run w).run.1

namespace Gives

variable {P : α → Prop} {act : StateM σ α}

theorem pure {a : α} (h : P a) : Gives P (pure a : StateM σ α) := fun _ => h

theorem bind {Q : β → Prop} {next : α → StateM σ β} (h : Gives P act)
    (hnext : ∀ a, P a → Gives Q (next a)) : Gives Q (act >>= next) :=
  fun w => hnext _ (h w) _

end Gives

def ended (onOk : α → Prop) (onError : ε → Prop) : Except ε α → Prop
  | .ok a => onOk a
  | .error e => onError e

/-- What holds of all that a program gives back, and of all its failures. -/
def Ends (onOk : α → Prop) (onError : ε → Prop) (act : ExceptT ε (StateM σ) α) : Prop :=
  Gives (ended onOk onError) act.run

namespace Ends

variable {onOk : α → Prop} {onError : ε → Prop} {act : ExceptT ε (StateM σ) α}

theorem ok {a : α} (h : onOk a) : Ends onOk onError (pure a : ExceptT ε (StateM σ) α) :=
  fun _ => h

theorem fail {e : ε} (h : onError e) :
    Ends onOk onError (throw e : ExceptT ε (StateM σ) α) :=
  fun _ => h

/-- A world that may answer anything. -/
theorem any (act : ExceptT ε (StateM σ) α) (h : ∀ e, onError e) :
    Ends (fun _ => True) onError act := by
  intro w
  cases (act.run.run w).run.1 with
  | ok a => trivial
  | error e => exact h e

theorem lift (x : Except ε α) (hok : ∀ a, x = .ok a → onOk a)
    (herror : ∀ e, x = .error e → onError e) :
    Ends onOk onError (liftM x : ExceptT ε (StateM σ) α) := by
  cases x with
  | ok a => exact .ok (hok a rfl)
  | error e => exact .fail (herror e rfl)

/-- What cannot fail. -/
theorem liftState (x : StateM σ α) :
    Ends (fun _ => True) onError (ExceptT.lift x : ExceptT ε (StateM σ) α) :=
  fun _ => trivial

theorem mono {onOk' : α → Prop} {onError' : ε → Prop} (h : Ends onOk onError act)
    (hok : ∀ a, onOk a → onOk' a) (herror : ∀ e, onError e → onError' e) :
    Ends onOk' onError' act := by
  intro w
  have hw := h w
  cases hresult : (act.run.run w).run.1 with
  | ok a => exact hok a (by rwa [hresult] at hw)
  | error e => exact herror e (by rwa [hresult] at hw)

theorem bind {onOk' : β → Prop} {next : α → ExceptT ε (StateM σ) β}
    (h : Ends onOk onError act) (hnext : ∀ a, onOk a → Ends onOk' onError (next a)) :
    Ends onOk' onError (act >>= next) := by
  rw [Ends, ExceptT.run_bind]
  refine Gives.bind h fun r hr => ?_
  cases r with
  | ok a => exact hnext a hr
  | error e => exact .pure hr

theorem map {onOk' : β → Prop} {f : α → β} (h : Ends (fun a => onOk' (f a)) onError act) :
    Ends onOk' onError (f <$> act) := by
  rw [map_eq_pure_bind]
  exact h.bind fun a ha => .ok ha

theorem adapt {onError : ε' → Prop} {f : ε → ε'}
    (h : Ends onOk (fun e => onError (f e)) act) :
    Ends onOk onError (act.adapt f) := by
  rw [Ends, ExceptT.run_adapt, map_eq_pure_bind]
  refine Gives.bind h fun r hr => .pure ?_
  cases r with
  | ok a => exact hr
  | error e => exact hr

theorem caught {onError' : ε → Prop} {handle : ε → ExceptT ε (StateM σ) α}
    (h : Ends onOk onError' act) (hhandle : ∀ e, onError' e → Ends onOk onError (handle e)) :
    Ends onOk onError (tryCatch act handle) := by
  rw [Ends, ExceptT.run_tryCatch]
  refine Gives.bind h fun r hr => ?_
  cases r with
  | ok a => exact .pure hr
  | error e => exact hhandle e hr

/-- A failure that is passed on after something was done about it. -/
theorem rethrow {after : ε → ExceptT ε (StateM σ) β} (h : Ends onOk onError act)
    (hafter : ∀ e, Ends (fun _ => True) onError (after e)) :
    Ends onOk onError (tryCatch act fun e => do let _ ← after e; throw e) :=
  h.caught fun e he => (hafter e).bind fun _ _ => .fail he

/-- What is done for each element of a list, up to the last one. -/
theorem each {xs : List α} {body : α → PUnit → ExceptT ε (StateM σ) (ForInStep PUnit)}
    (h : ∀ x, Ends (· = .yield PUnit.unit) onError (body x PUnit.unit)) :
    Ends (fun _ => True) onError (forIn xs PUnit.unit body) := by
  induction xs with
  | nil => exact .ok trivial
  | cons x rest ih =>
      rw [List.forIn_cons]
      refine (h x).bind ?_
      rintro _ rfl
      exact ih

end Ends

/-! ## Opening the four stores -/

/-- Whether a failure is a fault of the settings, and not of the world. -/
def blamesSettings : OpenError → Bool
  | .config _ => true
  | _ => false

/-- The settings are not to blame for any failure of a program. -/
abbrev Blameless (act : Opening (StateM σ) α) : Prop :=
  Ends (fun _ => True) (fun e => blamesSettings e = false) act

/-- A failure of the world, passed on under the name of a store. -/
theorem blameless_mapped {f : ε → OpenError} (act : ExceptT ε (StateM σ) α)
    (h : ∀ e, blamesSettings (f e) = false) : Blameless (act.adapt f) := by
  refine Ends.adapt ?_
  exact .any act h

theorem SchemaAccess.migrate_blameless {s : SchemaAccess (StateM σ)}
    (hversions : Blameless s.hasVersions) (hversion : Blameless s.version)
    (hinstall : Blameless s.install) : Blameless s.migrate := by
  unfold SchemaAccess.migrate
  refine hversions.bind fun there _ => ?_
  cases there with
  | false => exact hinstall
  | true =>
    refine hversion.bind fun version _ => ?_
    cases version with
    | none =>
      dsimp only
      split
      · exact hinstall
      · exact .ok trivial
    | some v =>
      dsimp only
      split
      · exact .fail rfl
      · exact .ok trivial

namespace Sqlite

variable {session : Session (StateM σ)}

theorem inTransaction_blameless {act : Opening (StateM σ) Unit} (h : Blameless act) :
    Blameless (inTransaction session act) := by
  have execute (st : Relational.Statement) : Blameless (execute session st) :=
    (blameless_mapped _ fun _ => rfl).bind fun _ _ => .ok trivial
  refine (execute _).bind fun _ _ => ?_
  exact (h.bind fun _ _ => execute _).rethrow fun _ => .liftState _

theorem migrate_blameless (clock : Clock (StateM σ)) :
    Blameless (schemaAccess session clock).migrate := by
  refine SchemaAccess.migrate_blameless (blameless_mapped _ fun _ => rfl)
    (blameless_mapped _ fun _ => rfl) (inTransaction_blameless ?_)
  refine (blameless_mapped _ fun _ => rfl).bind fun _ _ => ?_
  refine (Ends.liftState _).bind fun now _ => ?_
  exact (blameless_mapped _ fun _ => rfl).bind fun _ _ => .ok trivial

theorem Handle.init_blameless (files : Files (StateM σ)) (disk : Disk (StateM σ))
    (clock : Clock (StateM σ)) (path : String) (limit : Nat) :
    Blameless (Handle.init files disk clock path limit) := by
  refine (blameless_mapped _ fun _ => rfl).bind fun _ _ => ?_
  refine (blameless_mapped _ fun _ => rfl).bind fun session _ => ?_
  exact (migrate_blameless clock).bind fun _ _ => .ok trivial

end Sqlite

namespace Duckdb

variable {session : Session (StateM σ)}

theorem inTransaction_blameless {act : Opening (StateM σ) Unit} (h : Blameless act) :
    Blameless (inTransaction session act) := by
  refine (blameless_mapped _ fun _ => rfl).bind fun _ _ => ?_
  refine (h.rethrow fun _ => .liftState _).bind fun _ _ => ?_
  exact blameless_mapped _ fun _ => rfl

theorem migrate_blameless : Blameless (schemaAccess session).migrate := by
  refine SchemaAccess.migrate_blameless (blameless_mapped _ fun _ => rfl) ?version
    (inTransaction_blameless ?install)
  case version =>
    refine (Ends.liftState _).bind fun answer _ => ?_
    cases answer with
    | ok a => exact .ok trivial
    | error e => exact .ok trivial
  case install =>
    refine Ends.bind (Ends.each fun text => ?_) fun _ _ => ?_
    · exact (blameless_mapped _ fun _ => rfl).bind fun _ _ => .ok rfl
    · exact (blameless_mapped _ fun _ => rfl).bind fun _ _ => .ok trivial

theorem Handle.init_blameless (files : Files (StateM σ)) (engine : Engine (StateM σ))
    (path : String) (limit : Nat) : Blameless (Handle.init files engine path limit) := by
  refine (blameless_mapped _ fun _ => rfl).bind fun _ _ => ?_
  refine (blameless_mapped _ fun _ => rfl).bind fun session _ => ?_
  have prepared : Blameless (do opening (session.batch preparation)
                                (schemaAccess session).migrate) :=
    (blameless_mapped _ fun _ => rfl).bind fun _ _ => migrate_blameless
  exact (prepared.rethrow fun _ => .liftState _).bind fun _ _ => .ok trivial

end Duckdb

namespace Postgres

theorem migrate_blameless {session : Session (StateM σ)} :
    Blameless (schemaAccess session).migrate := by
  refine SchemaAccess.migrate_blameless (blameless_mapped _ fun _ => rfl)
    (blameless_mapped _ fun _ => rfl) ?_
  refine Ends.bind (Ends.each fun text => ?_) fun _ _ => ?_
  · exact (blameless_mapped _ fun _ => rfl).bind fun _ _ => .ok rfl
  · exact (blameless_mapped _ fun _ => rfl).bind fun _ _ => .ok trivial

/-- A url that was given can only be one that is no address. -/
theorem Handle.init_ends (servers : Servers (StateM σ)) {settings : Config.PostgresSettings}
    (hurl : settings.url ≠ "") (limit : Nat) :
    Ends (fun _ => True)
      (fun e => blamesSettings e = true → ∃ fault, Address.parse settings.url = .error fault ∧
        e = .config s!"Invalid PostgreSQL URL: {PoolError.message fault}")
      (Handle.init servers settings limit) := by
  refine Ends.bind (Ends.lift (addressOf settings) (fun _ _ => trivial) ?_) fun address _ => ?_
  · intro e he _
    have hempty : ¬ settings.url.isEmpty = true := by simpa using hurl
    rw [addressOf, if_neg hempty] at he
    cases hparse : Address.parse settings.url with
    | ok address =>
      rw [hparse] at he
      dsimp only at he
      split at he <;> cases he
    | error fault =>
      rw [hparse] at he
      cases he
      exact ⟨fault, rfl, rfl⟩
  · have opened : Blameless (do
        let session ← opening (servers.connect address)
        (schemaAccess session).migrate
        return ({ session, pool := poolOf settings, limit } : Handle (StateM σ))) :=
      (blameless_mapped _ fun _ => rfl).bind fun session _ =>
        migrate_blameless.bind fun _ _ => .ok trivial
    exact opened.mono (fun _ => id) fun e he hblames => by simp [he] at hblames

end Postgres

namespace Clickhouse

theorem migrate_blameless (servers : Servers (StateM σ)) (settings : Config.ClickhouseSettings) :
    Blameless (schemaAccess servers settings).migrate := by
  refine SchemaAccess.migrate_blameless (blameless_mapped _ fun _ => rfl)
    (blameless_mapped _ fun _ => rfl) ?_
  dsimp only [schemaAccess]
  -- What the statements say does not matter, and there are many of them.
  generalize Schema.statements .clickhouse = texts
  refine Ends.bind (Ends.each fun text => ?_) fun _ _ => ?_
  · exact (blameless_mapped _ fun _ => rfl).bind fun _ _ => .ok rfl
  · exact blameless_mapped _ fun _ => rfl

theorem Handle.init_blameless (servers : Servers (StateM σ))
    {settings : Config.ClickhouseSettings} (hurl : settings.url ≠ "") (limit : Nat) :
    Blameless (Handle.init servers settings limit) := by
  have hempty : ¬ settings.url.isEmpty = true := by simpa using hurl
  unfold Handle.init
  rw [if_neg hempty]
  exact (migrate_blameless servers settings).bind fun _ _ => .ok trivial

end Clickhouse

end Store

/-! ## Opening what the settings choose -/

open Store

variable {σ : Type}

theorem RowStore.init_ends (o : Surroundings (StateM σ)) {s : Config.Settings} (limit : Nat)
    (hurl : s.rowStore = .postgres → ∃ pg, s.postgres = some pg ∧ pg.url ≠ "") :
    Ends (fun store => store.backend = s.rowStore.backend)
      (fun e => blamesSettings e = true → ∃ pg fault, s.postgres = some pg ∧
        Postgres.Address.parse pg.url = .error fault ∧
        e = .config s!"Invalid PostgreSQL URL: {PoolError.message fault}")
      (RowStore.init o s limit) := by
  unfold RowStore.init
  cases hrow : s.rowStore with
  | sqlite =>
    refine Ends.map ?_
    exact (Sqlite.Handle.init_blameless o.files o.sqlite o.clock s.sqlitePath limit).mono
      (fun _ _ => rfl) fun e he hblames => by simp [he] at hblames
  | postgres =>
    obtain ⟨pg, hpg, hne⟩ := hurl hrow
    rw [hpg]
    refine Ends.map ?_
    exact (Postgres.Handle.init_ends o.postgres hne limit).mono (fun _ _ => rfl)
      fun e he hblames => ⟨pg, (he hblames).imp fun _ hfault => ⟨rfl, hfault⟩⟩

theorem ColumnStore.init_ends (o : Surroundings (StateM σ)) {s : Config.Settings} (limit : Nat)
    (hurl : s.columnStore = .clickhouse → ∃ ch, s.clickhouse = some ch ∧ ch.url ≠ "") :
    Ends (fun store => store.backend = s.columnStore.backend)
      (fun e => blamesSettings e = false) (ColumnStore.init o s limit) := by
  unfold ColumnStore.init
  cases hcolumn : s.columnStore with
  | duckdb =>
    refine Ends.map ?_
    exact (Duckdb.Handle.init_blameless o.files o.duckdb s.duckdbPath limit).mono
      (fun _ _ => rfl) fun _ => id
  | clickhouse =>
    obtain ⟨ch, hch, hne⟩ := hurl hcolumn
    rw [hch]
    refine Ends.map ?_
    exact (Clickhouse.Handle.init_blameless o.clickhouse hne limit).mono (fun _ _ => rfl)
      fun _ => id

end RequestLog
