import RequestLog.Config.Load
import RequestLog.Proofs.Config.Layers
import RequestLog.Proofs.Store.Ending

/-!
# Settings that were loaded are complete

A server's settings are optional, and so is its url, which may be empty on the command line
over a good one in a file. Nothing in their type says that a store finds what it needs. What
says it is that settings were loaded: they are checked when all layers have been put together
(`load_ok`), and the stores look again at what was checked (`load_complete`).
-/

namespace RequestLog.Config

open Store

variable {σ τ : Type}

/-- Settings with all that the stores they choose ask for. -/
structure Settings.Complete (s : Settings) : Prop where
  time : 0 < s.queryTimeout
  postgres : s.rowStore = .postgres → ∃ pg, s.postgres = some pg ∧ pg.url ≠ ""
  clickhouse : s.columnStore = .clickhouse → ∃ ch, s.clickhouse = some ch ∧ ch.url ≠ ""

/-- An address is there when it cannot be said of all sections that theirs is empty. -/
theorem exists_url {α : Type} {url : α → String} {section? : Option α}
    (h : section?.all (fun a => (url a).isEmpty) = false) :
    ∃ a, section? = some a ∧ url a ≠ "" := by
  cases section? with
  | none => simp at h
  | some a => exact ⟨a, rfl, by simpa using h⟩

theorem Settings.complete_of_fault {s : Settings} (h : s.fault? = none) : s.Complete := by
  unfold Settings.fault? at h
  split at h
  · cases h
  split at h
  · cases h
  split at h
  · cases h
  next htime hpostgres hclickhouse =>
    exact {
      time := Nat.pos_of_ne_zero htime
      postgres := fun hrow => exists_url (by simpa [hrow] using hpostgres)
      clickhouse := fun hcolumn => exists_url (by simpa [hcolumn] using hclickhouse) }

section

variable {files : Files (StateM σ)} {w w' : σ}

/-- A program that ended well and would not have gone on behind a failure. -/
theorem ok_step {ε α β : Type} {x : StateM σ (Except ε α)}
    {next : Except ε α → StateM σ (Except ε β)} {b : β}
    (h : (x >>= next).run w = (.ok b, w')) (hfails : ∀ e, next (.error e) = pure (.error e)) :
    ∃ a w₁, x.run w = (.ok a, w₁) ∧ (next (.ok a)).run w₁ = (.ok b, w') := by
  rw [StateT.run_bind] at h
  cases hx : x.run w with
  | mk r w₁ =>
    rw [hx] at h
    cases r with
    | error e =>
      change (next (.error e)).run w₁ = _ at h
      rw [hfails] at h
      cases h
    | ok a => exact ⟨a, w₁, rfl, h⟩

theorem Settings.validate_ok {s s' : Settings}
    (h : (s.validate files).run w = (.ok s', w')) :
    s' = s ∧ s.fault? = none ∧
      ∀ path, s.rulesPath = some path → (files.exists? path).run w = (true, w') := by
  unfold Settings.validate at h
  split at h
  · cases h
  · next hfault hrules =>
      cases h
      exact ⟨rfl, hfault, fun path hpath => by simp [hrules] at hpath⟩
  · next path hfault hrules =>
      rw [StateT.run_bind] at h
      cases hthere : (files.exists? path).run w with
      | mk there w₁ =>
        rw [hthere] at h
        cases there with
        | false => cases h
        | true =>
          cases h
          refine ⟨rfl, hfault, fun path' hpath => ?_⟩
          rw [hrules] at hpath
          cases hpath
          exact hthere

theorem load_ok {p : Places} {named : Option String} {given : Overrides} {s : Settings}
    (h : (load files p named given).run w = (.ok s, w')) :
    ∃ file w₁, (readFiles files p named).run w = (.ok file, w₁) ∧ s = resolve p file given ∧
      s.fault? = none ∧
      ∀ path, s.rulesPath = some path → (files.exists? path).run w₁ = (true, w') := by
  unfold load at h
  obtain ⟨file, w₁, hread, h⟩ := ok_step h fun _ => rfl
  obtain ⟨rfl, hfault, hrules⟩ := Settings.validate_ok h
  exact ⟨file, w₁, hread, rfl, hfault, hrules⟩

end

/-- Failures that say of a store that its settings lack something. -/
def lacking : List OpenError := [
  .config "PostgreSQL configuration required",
  .config "PostgreSQL URL is required",
  .config "ClickHouse configuration required",
  .config "ClickHouse URL is required"]

theorem blamesSettings_of_lacking {e : OpenError} (h : e ∈ lacking) :
    blamesSettings e = true := by
  revert e
  decide

/-- A url that is no address is another matter than one that is not there. -/
theorem invalid_not_lacking (reason : String) :
    OpenError.config s!"Invalid PostgreSQL URL: {reason}" ∉ lacking := by
  have first : ∀ e ∈ lacking, ∀ text, e = .config text → text.toList.head? ≠ some 'I' := by
    simp [lacking]
  intro h
  refine first _ h _ rfl ?_
  change ("Invalid PostgreSQL URL: " ++ reason).toList.head? = some 'I'
  simp

/-- Settings that were loaded let their stores be opened, as far as that depends on settings. -/
theorem load_complete (files : Files (StateM σ)) (p : Places) (named : Option String)
    (given : Overrides) (w w' : σ) (s : Settings)
    (h : (load files p named given).run w = (.ok s, w')) :
    s.Complete ∧
      (∃ file w₁, (readFiles files p named).run w = (.ok file, w₁) ∧ s = resolve p file given ∧
        ∀ path, s.rulesPath = some path → (files.exists? path).run w₁ = (true, w')) ∧
      ∀ (o : Surroundings (StateM τ)) (limit : Nat),
        Ends (fun store => store.backend = s.rowStore.backend) (· ∉ lacking)
          (RowStore.init o s limit) ∧
        Ends (fun store => store.backend = s.columnStore.backend) (· ∉ lacking)
          (ColumnStore.init o s limit) := by
  obtain ⟨file, w₁, hread, rfl, hfault, hrules⟩ := load_ok h
  have complete := Settings.complete_of_fault hfault
  refine ⟨complete, ⟨file, w₁, hread, rfl, hrules⟩, fun o limit => ⟨?_, ?_⟩⟩
  · refine (RowStore.init_ends o limit complete.postgres).mono (fun _ => id)
      fun e he hlacking => ?_
    obtain ⟨pg, fault, -, -, rfl⟩ := he (blamesSettings_of_lacking hlacking)
    exact invalid_not_lacking _ hlacking
  · refine (ColumnStore.init_ends o limit complete.clickhouse).mono (fun _ => id)
      fun e he hlacking => ?_
    simp [blamesSettings_of_lacking hlacking] at he

/-- There is no configuration file, and there is a list of prices. -/
def onlyPrices : Files (StateM Unit) where
  exists? path := return path == "/etc/prices.json"
  read path := return .error path
  makeFolder _ := return .ok ()

/-- A server of each kind and the list of prices, all given on the command line. -/
def givenServers : Overrides where
  rowStore := some .postgres
  columnStore := some .clickhouse
  postgresUrl := some "postgres://db/log"
  clickhouseUrl := some "http://db:8123"
  rulesPath := some "/etc/prices.json"

theorem load_complete_given :
    (load onlyPrices samplePlaces none givenServers).run () =
        (.ok (resolve samplePlaces {} givenServers), ()) ∧
      (resolve samplePlaces {} givenServers).Complete := by
  have h : (load onlyPrices samplePlaces none givenServers).run () =
      (.ok (resolve samplePlaces {} givenServers), ()) := by rfl
  exact ⟨h, (@load_complete Unit Unit onlyPrices samplePlaces none givenServers () () _ h).1⟩

end RequestLog.Config
