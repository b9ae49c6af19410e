import RequestLog.Config.Settings

/-!
# Every setting comes from the first place that says it

Two files and the command line each leave some settings open. Settings are resolved from the
files laid over one another, section by section, and a section may be absent in one file and
there in another, so it is not obvious that what counts in the end is each setting by itself.

The reason is that an absent section counts as one that says nothing (`laidOver_getD`): with
that, what two files say together is what each of them says, setting by setting
(`Layer.ofFile_merge`), and `resolve_decided` reads every setting off. It names each with the
places that can say it, and for most settings of the servers the command line is none of them.
-/

namespace RequestLog.Config

variable {α σ : Type}

/-! ## Sections -/

theorem PostgresSection.merge_empty (l : PostgresSection) : l.merge {} = l := rfl

theorem ClickhouseSection.merge_empty (l : ClickhouseSection) : l.merge {} = l := rfl

theorem DatabaseSection.merge_empty (l : DatabaseSection) : l.merge {} = l := rfl

theorem PricingSection.merge_empty (l : PricingSection) : l.merge {} = l := rfl

theorem laidOver_getD {empty : σ} {merge : σ → σ → σ} (h : ∀ l, merge l empty = l)
    (lower upper : Option σ) :
    (laidOver empty merge lower upper).getD empty =
      merge (lower.getD empty) (upper.getD empty) := by
  cases upper with
  | none => exact (h _).symm
  | some upper => rfl

/-- A section without a path is passed over, so the path is laid over like any setting. -/
theorem EmbeddedSection.path_merge (lower upper : Option EmbeddedSection) :
    (EmbeddedSection.merge lower upper).bind (·.path) =
      (upper.bind (·.path) <|> lower.bind (·.path)) := by
  rcases upper with - | ⟨- | path⟩ <;> rfl

/-! ## Layers -/

namespace Layer

/-- What two layers say together; where both do, the upper one counts. -/
def onto (upper lower : Layer) : Layer where
  rowStore := upper.rowStore <|> lower.rowStore
  columnStore := upper.columnStore <|> lower.columnStore
  sqlitePath := upper.sqlitePath <|> lower.sqlitePath
  duckdbPath := upper.duckdbPath <|> lower.duckdbPath
  postgresUrl := upper.postgresUrl <|> lower.postgresUrl
  maxConnections := upper.maxConnections <|> lower.maxConnections
  minConnections := upper.minConnections <|> lower.minConnections
  acquireTimeout := upper.acquireTimeout <|> lower.acquireTimeout
  idleTimeout := upper.idleTimeout <|> lower.idleTimeout
  maxLifetime := upper.maxLifetime <|> lower.maxLifetime
  statementTimeout := upper.statementTimeout <|> lower.statementTimeout
  clickhouseUrl := upper.clickhouseUrl <|> lower.clickhouseUrl
  database := upper.database <|> lower.database
  user := upper.user <|> lower.user
  password := upper.password <|> lower.password
  compression := upper.compression <|> lower.compression
  queryTimeout := upper.queryTimeout <|> lower.queryTimeout
  rulesPath := upper.rulesPath <|> lower.rulesPath

theorem ofFile_merge (lower upper : File) :
    ofFile (lower.merge upper) = (ofFile upper).onto (ofFile lower) := by
  simp only [ofFile, onto, File.merge, laidOver_getD DatabaseSection.merge_empty,
    laidOver_getD PricingSection.merge_empty, DatabaseSection.merge, PricingSection.merge,
    laidOver_getD PostgresSection.merge_empty, laidOver_getD ClickhouseSection.merge_empty,
    PostgresSection.merge, ClickhouseSection.merge, EmbeddedSection.path_merge]

/-- The first file is laid over one in which there is nothing. -/
theorem ofFile_empty_merge (f : File) : ofFile (({} : File).merge f) = ofFile f := by
  have lone (l : Layer) : l.onto (ofFile {}) = l := by simp [onto, ofFile]
  rw [ofFile_merge, lone]

end Layer

/-! ## What a file says -/

namespace File

variable (f : File)

def ofDatabase (get : DatabaseSection → Option α) : Option α := f.database.bind get

def ofEmbedded (get : DatabaseSection → Option EmbeddedSection) : Option String :=
  f.ofDatabase fun d => (get d).bind (·.path)

def ofPostgres (get : PostgresSection → Option α) : Option α :=
  f.ofDatabase fun d => d.postgres.bind get

def ofClickhouse (get : ClickhouseSection → Option α) : Option α :=
  f.ofDatabase fun d => d.clickhouse.bind get

def ofPricing (get : PricingSection → Option α) : Option α := f.pricing.bind get

end File

namespace Layer

theorem ofFile_eq (f : File) :
    ofFile f =
      { rowStore := f.ofDatabase (·.rowStore)
        columnStore := f.ofDatabase (·.columnStore)
        sqlitePath := f.ofEmbedded (·.sqlite)
        duckdbPath := f.ofEmbedded (·.duckdb)
        postgresUrl := f.ofPostgres (·.url)
        maxConnections := f.ofPostgres (·.maxConnections)
        minConnections := f.ofPostgres (·.minConnections)
        acquireTimeout := f.ofPostgres (·.acquireTimeout)
        idleTimeout := f.ofPostgres (·.idleTimeout)
        maxLifetime := f.ofPostgres (·.maxLifetime)
        statementTimeout := f.ofPostgres (·.statementTimeout)
        clickhouseUrl := f.ofClickhouse (·.url)
        database := f.ofClickhouse (·.database)
        user := f.ofClickhouse (·.user)
        password := f.ofClickhouse (·.password)
        compression := f.ofClickhouse (·.compression)
        queryTimeout := f.ofDatabase (·.queryTimeout)
        rulesPath := f.ofPricing (·.rulesPath) } := by
  -- One case for each way in which sections can be there or absent.
  rcases f with ⟨- | ⟨_, _, _, _, - | _, - | _, _⟩, - | _, _⟩ <;> rfl

end Layer

/-! ## Where a setting comes from -/

/-- What is said of a setting: given on the command line, else in the overlay, else in the
profile. -/
def said (profile overlay : File) (given : Option α) (get : File → Option α) : Option α :=
  given <|> get overlay <|> get profile

/-- Settings of which each one is the first that is said, or else the default. -/
structure Decided (p : Places) (profile overlay : File) (given : Overrides) (s : Settings) :
    Prop where
  rowStore : s.rowStore =
    (said profile overlay given.rowStore (·.ofDatabase (·.rowStore))).getD .sqlite
  columnStore : s.columnStore =
    (said profile overlay given.columnStore (·.ofDatabase (·.columnStore))).getD .duckdb
  sqlitePath : s.sqlitePath =
    ((said profile overlay given.sqlitePath (·.ofEmbedded (·.sqlite))).map p.expand).getD
      (join (join p.data folderName) sqliteFileName)
  duckdbPath : s.duckdbPath =
    ((said profile overlay given.duckdbPath (·.ofEmbedded (·.duckdb))).map p.expand).getD
      (join (join p.data folderName) duckdbFileName)
  /-- The server's settings are there exactly when its backend is chosen. -/
  postgres : s.postgres = if s.rowStore = .postgres then
      some {
        url := (said profile overlay given.postgresUrl (·.ofPostgres (·.url))).getD ""
        maxConnections := (said profile overlay none (·.ofPostgres (·.maxConnections))).getD 20
        minConnections := (said profile overlay none (·.ofPostgres (·.minConnections))).getD 2
        acquireTimeout := (said profile overlay none (·.ofPostgres (·.acquireTimeout))).getD 30
        idleTimeout := (said profile overlay none (·.ofPostgres (·.idleTimeout))).getD 600
        maxLifetime := (said profile overlay none (·.ofPostgres (·.maxLifetime))).getD 1800
        statementTimeout :=
          (said profile overlay none (·.ofPostgres (·.statementTimeout))).getD 60 }
    else none
  clickhouse : s.clickhouse = if s.columnStore = .clickhouse then
      some {
        url := (said profile overlay given.clickhouseUrl (·.ofClickhouse (·.url))).getD ""
        database := (said profile overlay none (·.ofClickhouse (·.database))).getD "requestlens"
        user := said profile overlay none (·.ofClickhouse (·.user))
        password := said profile overlay none (·.ofClickhouse (·.password))
        compression := (said profile overlay none (·.ofClickhouse (·.compression))).getD true }
    else none
  queryTimeout : s.queryTimeout =
    (said profile overlay given.queryTimeout (·.ofDatabase (·.queryTimeout))).getD 30
  rulesPath : s.rulesPath =
    (said profile overlay given.rulesPath (·.ofPricing (·.rulesPath))).map p.expand

/-- A path that was given is expanded, and the default is one already. -/
theorem Layer.dataFile_eq (p : Places) (given : Option String) (name : String) :
    Layer.dataFile p given name =
      (given.map p.expand).getD (join (join p.data folderName) name) := by
  cases given <;> rfl

/-- A file with one more section than another, and nothing in it. -/
inductive AddsEmpty : File → File → Prop where
  | database {f : File} : f.database = none → AddsEmpty f { f with database := some {} }
  | pricing {f : File} : f.pricing = none → AddsEmpty f { f with pricing := some {} }
  | sqlite {f : File} {d : DatabaseSection} : f.database = some d → d.sqlite = none →
      AddsEmpty f { f with database := some { d with sqlite := some {} } }
  | duckdb {f : File} {d : DatabaseSection} : f.database = some d → d.duckdb = none →
      AddsEmpty f { f with database := some { d with duckdb := some {} } }
  | postgres {f : File} {d : DatabaseSection} : f.database = some d → d.postgres = none →
      AddsEmpty f { f with database := some { d with postgres := some {} } }
  | clickhouse {f : File} {d : DatabaseSection} : f.database = some d → d.clickhouse = none →
      AddsEmpty f { f with database := some { d with clickhouse := some {} } }

theorem AddsEmpty.ofFile_eq {f f' : File} (h : AddsEmpty f f') :
    Layer.ofFile f' = Layer.ofFile f := by
  cases h with
  | database h | pricing h => simp [Layer.ofFile, h]
  | sqlite h h' | duckdb h h' | postgres h h' | clickhouse h h' => simp [Layer.ofFile, h, h']

/-- The settings that are resolved from two files and the command line. -/
theorem resolve_decided (p : Places) (profile overlay : File) (given : Overrides) :
    Decided p profile overlay given
        (resolve p ((({} : File).merge profile).merge overlay) given) ∧
      ∀ overlay', AddsEmpty overlay overlay' →
        resolve p ((({} : File).merge profile).merge overlay') given =
          resolve p ((({} : File).merge profile).merge overlay) given := by
  have files (f : File) : Layer.ofFile ((({} : File).merge profile).merge f) =
      (Layer.ofFile f).onto (Layer.ofFile profile) := by
    rw [Layer.ofFile_merge, Layer.ofFile_empty_merge]
  constructor
  · simp only [resolve, files, Layer.ofFile_eq]
    exact {
      rowStore := rfl
      columnStore := rfl
      sqlitePath := Layer.dataFile_eq ..
      duckdbPath := Layer.dataFile_eq ..
      postgres := rfl
      clickhouse := rfl
      queryTimeout := rfl
      rulesPath := rfl }
  · intro overlay' h
    simp only [resolve, files, h.ofFile_eq]

def samplePlaces : Places := ⟨"/home/ada", "/work", "/home/ada/.local/share"⟩

/-- The profile chooses a server and says how to reach it. -/
def serverProfile : File :=
  { database := some {
      rowStore := some .postgres
      postgres := some { url := some "postgres://db/log", maxConnections := some 5 } } }

/-- The overlay sets a time and names no server. -/
def hurriedOverlay : File := { database := some { queryTimeout := some 7 } }

/-- The same overlay with a section for the server, in which nothing is said. -/
def emptiedOverlay : File :=
  { database := some { queryTimeout := some 7, postgres := some {} } }

/-- The profile still decides about the server, and the overlay about the time. -/
theorem resolve_emptySection :
    AddsEmpty hurriedOverlay emptiedOverlay ∧
      let s := resolve samplePlaces ((({} : File).merge serverProfile).merge emptiedOverlay) {}
      s.queryTimeout = 7 ∧ s.postgres = some
        { postgresDefaults with url := "postgres://db/log", maxConnections := 5 } := by
  have h : AddsEmpty hurriedOverlay emptiedOverlay :=
    .postgres (d := { queryTimeout := some 7 }) rfl rfl
  have decided := resolve_decided samplePlaces serverProfile hurriedOverlay {}
  refine ⟨h, ?_⟩
  rw [decided.2 _ h]
  exact ⟨decided.1.queryTimeout, decided.1.postgres⟩

end RequestLog.Config
