import RequestLog.Proofs.Metric.Outcome
import RequestLog.Proofs.Store.Coercion
import RequestLog.Proofs.Store.Rows
import RequestLog.Store.Service

/-!
# Rows have the shape that was declared

Four stores are read by four clients, each with rules of its own for what may stand for a
value of a kind. Whatever a client makes of a cell is of the kind in the end, or null
(`ResultKind.Holds`), and null goes no further where the column may not be null. So rows of
all stores fit their columns (`FitsRow`), and who asked need not know which store it was.

What a client does with an answer is told apart from how it got it. A `Reader` is a client's
way of reading, one record of the answer after the other, with the proof that a record which
is read becomes a row that fits. Numbers of a server are taken for what their types say, so
that proof may ask that they are of the size of their types (`Reader.Sound`).
-/

namespace RequestLog

namespace Store

open Decimal (fitsSigned twos)

/-! ## Values -/

/-- A value that a column may have: one of its kind, or null where it may be null. -/
def ResultColumn.Fits (c : ResultColumn) (v : Json) : Prop :=
  (v = .null ∧ c.nullable = true) ∨ c.kind.Holds v

/-- A row of the declared columns and no others, each with a value that it may have. -/
def FitsRow (columns : List ResultColumn) (row : Row) : Prop :=
  List.Forall₂ (fun c cell => cell.1 = c.name ∧ c.Fits cell.2) columns row

theorem ResultColumn.fits_of_allow {c : ResultColumn} {v w : Json}
    (hv : v = .null ∨ c.kind.Holds v) (h : c.allow v = .ok w) : c.Fits w := by
  obtain ⟨rfl, hnull⟩ := allow_eq_ok_iff.1 h
  exact hv.imp_left fun heq => ⟨heq, hnull heq⟩

theorem fitsRow_of_readColumns {ε : Type} {read : ResultColumn → Except ε Json}
    {columns : List ResultColumn} {row : Row} (hnames : (columns.map (·.name)).Nodup)
    (hread : ∀ c v, read c = .ok v → c.Fits v) (h : readColumns read columns = .ok row) :
    FitsRow columns row := by
  rw [readColumns_eq_mapM read hnames] at h
  refine (forall₂_of_mapM h).imp fun c cell hcell => ?_
  obtain ⟨hname, hvalue⟩ := cellOf_ok_iff.1 hcell
  exact ⟨hname, hread c cell.2 hvalue⟩

/-! ## The four clients -/

section

variable {γ : Type} {take : ResultKind → γ → Except String Json} {cells : List (String × γ)}
  {c : ResultColumn} {w : Json}

theorem mem_of_cellNamed {name : String} {cell : γ} (h : cellNamed? name cells = some cell) :
    cell ∈ cells.map (·.2) := by
  obtain ⟨named, hnamed, rfl⟩ := Option.map_eq_some_iff.1 h
  exact List.mem_map_of_mem (List.mem_reverse.1 (List.mem_of_find?_eq_some hnamed))

/-- What a pooled client reads is what it takes out of some cell. -/
theorem readCell_fits
    (htake : ∀ cell ∈ cells.map (·.2), ∀ k v, take k cell = .ok v → v = .null ∨ k.Holds v)
    (h : readCell take cells c = .ok w) : c.Fits w := by
  unfold readCell at h
  split at h
  · cases h
  · next cell hcell =>
    split at h
    · cases h
    · next v hv =>
      split at h
      · cases h
      · next hallow =>
        cases h
        exact ResultColumn.fits_of_allow (htake cell (mem_of_cellNamed hcell) _ _ hv) hallow

end

namespace Sqlite

open Relational (Value)

/-- An integer is of 64 bits. -/
def Sound (v : Value) : Prop := ∀ i, v = .int i → fitsSigned 64 i = true

theorem take_holds {k : ResultKind} {v : Value} {w : Json} (hv : Sound v)
    (h : take k v = .ok w) : w = .null ∨ k.Holds w := by
  unfold take at h
  split at h <;> cases h
  · exact .inl rfl
  · exact .inr (.int (hv _ rfl))
  · exact ResultKind.ofFloat_holds _
  · exact ResultKind.ofFloat_holds _
  · exact .inr .text
  · exact .inr .bool

end Sqlite

namespace Postgres

/-- An integer is of the size of its type. -/
def Sound (t : TypedCell SqlType) : Prop :=
  ∀ i, t.cell = .int i →
    (t.type = .int8 → fitsSigned 64 i = true) ∧ (t.type = .int4 → fitsSigned 32 i = true)

theorem fitsSigned_wider {i : Int} (h : fitsSigned 32 i = true) : fitsSigned 64 i = true := by
  have htwos : twos 31 = 2 ^ 31 ∧ twos 63 = 2 ^ 63 := ⟨rfl, rfl⟩
  rw [fitsSigned, Bool.and_eq_true, decide_eq_true_eq, decide_eq_true_eq] at h ⊢
  rw [htwos.1] at h
  rw [htwos.2]
  omega

theorem take_holds {k : ResultKind} {t : TypedCell SqlType} {w : Json} (ht : Sound t)
    (h : take k t = .ok w) : w = .null ∨ k.Holds w := by
  unfold take at h
  split at h <;> cases h
  · exact .inl rfl
  · next htype hcell => exact .inr (.int ((ht _ hcell).1 htype))
  · next htype hcell => exact .inr (.int (fitsSigned_wider ((ht _ hcell).2 htype)))
  · exact ResultKind.ofFloat_holds _
  · exact .inr .text
  · exact .inr .text
  · exact .inr .bool

end Postgres

namespace Duckdb

theorem fits_of_fit {bits : Nat} {i j : Int} (h : fit bits i = .ok j) :
    fitsSigned bits j = true := by
  unfold fit at h
  split at h
  · next hfits =>
    cases h
    exact hfits
  · cases h

/-- Whatever an integer was made from, it was asked whether it fits. -/
theorem readWhole_fits {bits : Nat} {t : TypedCell SqlType} {i : Int}
    (h : readWhole bits t = .ok i) : fitsSigned bits i = true := by
  unfold readWhole at h
  split at h
  · exact fits_of_fit h
  · exact fits_of_fit h
  · unfold cut at h
    split at h
    · cases h
    split at h
    · cases h
    dsimp only at h
    split at h
    · next hfits =>
      cases h
      exact hfits
    · cases h
  · unfold spelled at h
    split at h
    · split at h
      · exact fits_of_fit h
      · cases h
    · cases h
  · cases h

theorem take_holds {k : ResultKind} {t : TypedCell SqlType} {w : Json}
    (h : take k t = .ok w) : w = .null ∨ k.Holds w := by
  unfold take at h
  split at h
  · cases h
    exact .inl rfl
  · split at h
    · obtain ⟨i, hi, rfl⟩ := ok_of_map h
      exact .inr (.int (readWhole_fits hi))
    · obtain ⟨x, -, rfl⟩ := ok_of_map h
      exact ResultKind.ofFloat_holds x
    · obtain ⟨s, -, rfl⟩ := ok_of_map h
      exact .inr .text
    · obtain ⟨b, -, rfl⟩ := ok_of_map h
      exact .inr .bool

theorem readCell_fits {cells : List (TypedCell SqlType)} {c : ResultColumn} {w : Json}
    (h : readCell cells c = .ok w) : c.Fits w := by
  unfold readCell at h
  dsimp only at h
  split at h
  · cases h
  · split at h
    · cases h
    · cases h
    · next hv =>
      split at h
      · cases h
      · next hallow =>
        cases h
        exact ResultColumn.fits_of_allow (take_holds hv) hallow

end Duckdb

namespace Clickhouse

theorem rowOf_fits {columns : List ResultColumn} (hnames : (columns.map (·.name)).Nodup)
    {t : Json.Tree} {row : Row} (h : rowOf columns t = .ok row) : FitsRow columns row := by
  unfold rowOf at h
  split at h
  · cases h
  · next values _ =>
    refine fitsRow_of_readColumns hnames (fun c v hv => ?_) h
    unfold ResultColumn.read at hv
    split at hv
    · cases hv
    · split at hv
      · next hconvert => exact ResultColumn.fits_of_allow (ResultKind.holds_of_convert? hconvert) hv
      · cases hv

/-- The body of an answer may be any bytes. -/
theorem readRowBytes_fits {columns : List ResultColumn} (hnames : (columns.map (·.name)).Nodup)
    {body : List UInt8} {rows : List Row} (h : readRowBytes columns body = .ok rows) :
    List.Forall₂ (fun t row => rowOf columns t = .ok row ∧ FitsRow columns row)
      (Json.forest (Json.tokensOfBytes body)) rows :=
  (forall₂_of_mapM h).imp fun _ _ hrow => ⟨hrow, rowOf_fits hnames hrow⟩

/-- The values of a body, one behind the other; the typed form holds none that can be read. -/
def Body.values : Body → List Json.Tree
  | .text s => Json.forest (Json.tokensOfBytes s.toUTF8.data.toList)
  | .typed _ => [.number (.error .expectedValue)]

theorem readBody_eq (columns : List ResultColumn) (body : Body) :
    Handle.readBody columns body =
      body.values.mapM fun t => (rowOf columns t).mapError .decode := by
  cases body with
  | typed a => rfl
  | text s =>
    rw [mapM_mapError, Handle.readBody, Body.values, readRows, readRowBytes]
    cases (Json.forest (Json.tokensOfBytes s.toUTF8.data.toList)).mapM (rowOf columns) <;> rfl

end Clickhouse

/-! ## Reading an answer -/

variable {m : Type → Type} [Monad m]

/-- The answer to a query, before any of it is read. -/
def Asking.heard {Argument Answer : Type} (a : Asking m Argument Answer) (clock : Clock m)
    (limit : Nat) (q : Query) : m (Except FetchError Answer) :=
  match q.admittedBy a.backend with
  | .error e => return .error e
  | .ok () =>
      match bindArguments a.backend a.bind q.args with
      | .error e => return .error e
      | .ok args => inTime clock a.backend limit (a.ask q.text args)

theorem Asking.fetch_eq [LawfulMonad m] {Argument Answer : Type} (a : Asking m Argument Answer)
    (clock : Clock m) (limit : Nat) (q : Query) (columns : List ResultColumn) :
    (a.executor clock limit).fetch q columns =
      (· >>= a.read columns) <$> a.heard clock limit q := by
  unfold Asking.executor Asking.heard
  dsimp only
  cases q.admittedBy a.backend with
  | error e => simp; rfl
  | ok _ =>
    dsimp only
    cases bindArguments a.backend a.bind q.args with
    | error e => simp; rfl
    | ok args =>
      dsimp only
      rw [map_eq_pure_bind]
      congr 1
      funext answer
      cases answer <;> rfl

/-- How a client reads answers, one record after the other. -/
structure Reader (m : Type → Type) [Monad m] where
  Argument : Type
  Answer : Type
  Record : Type
  asking : Asking m Argument Answer
  limit : Nat
  /-- The rows of an answer as they came. -/
  records : Answer → List Record
  /-- What a row is read as. -/
  row : List ResultColumn → Record → Except FetchError Row
  /-- Numbers are of the sizes that their types have. -/
  Sound : Record → Prop
  read_eq : ∀ columns answer, asking.read columns answer = (records answer).mapM (row columns)
  fits : ∀ {columns record r}, (columns.map (·.name)).Nodup → Sound record →
    row columns record = .ok r → FitsRow columns r

def Sqlite.Handle.reader (s : Sqlite.Handle m) : Reader m where
  Argument := Relational.Value
  Answer := Relational.Result
  Record := List (String × Relational.Value)
  asking := s.asking
  limit := s.limit
  records r := r.rows.map r.names.zip
  row columns cells := readColumns (readCell Sqlite.take cells) columns
  Sound cells := ∀ v ∈ cells.map (·.2), Sqlite.Sound v
  read_eq _ _ := rfl
  fits hnames hsound h := fitsRow_of_readColumns hnames
    (fun _ _ => readCell_fits fun v hv _ _ => Sqlite.take_holds (hsound v hv)) h

def Postgres.Handle.reader (s : Postgres.Handle m) : Reader m where
  Argument := Postgres.Argument
  Answer := Answer Postgres.SqlType
  Record := List (String × TypedCell Postgres.SqlType)
  asking := s.asking
  limit := s.limit
  records a := a.typedRows.map (·.map fun t => (t.column, t))
  row columns cells := readColumns (readCell Postgres.take cells) columns
  Sound cells := ∀ t ∈ cells.map (·.2), Postgres.Sound t
  read_eq _ _ := rfl
  fits hnames hsound h := fitsRow_of_readColumns hnames
    (fun _ _ => readCell_fits fun t ht _ _ => Postgres.take_holds (hsound t ht)) h

def Duckdb.Handle.reader (s : Duckdb.Handle m) : Reader m where
  Argument := Duckdb.Argument
  Answer := Answer Duckdb.SqlType
  Record := List (TypedCell Duckdb.SqlType)
  asking := s.asking
  limit := s.limit
  records a := a.typedRows
  row columns cells := readColumns (Duckdb.readCell cells) columns
  Sound _ := True
  read_eq _ _ := rfl
  fits hnames _ h := fitsRow_of_readColumns hnames (fun _ _ => Duckdb.readCell_fits) h

def Clickhouse.Handle.reader (s : Clickhouse.Handle m) : Reader m where
  Argument := Clickhouse.Argument
  Answer := Clickhouse.Body
  Record := Json.Tree
  asking := s.asking
  limit := s.limit
  records := Clickhouse.Body.values
  row columns t := (rowOf columns t).mapError .decode
  Sound _ := True
  read_eq := Clickhouse.readBody_eq
  fits hnames _ h := Clickhouse.rowOf_fits hnames (ok_of_mapError h)

namespace Reader

variable (reader : Reader m) {columns : List ResultColumn}

theorem read_eq_ok_iff (answer : reader.Answer) (rows : List Row) :
    reader.asking.read columns answer = .ok rows ↔
      List.Forall₂ (fun record row => reader.row columns record = .ok row)
        (reader.records answer) rows := by
  rw [reader.read_eq]
  exact ⟨forall₂_of_mapM, mapM_of_forall₂⟩

theorem read_fails {answer : reader.Answer} {record : reader.Record} {e : FetchError}
    (hrecord : record ∈ reader.records answer) (he : reader.row columns record = .error e) :
    ∃ e, reader.asking.read columns answer = .error e := by
  cases hread : reader.asking.read columns answer with
  | error e => exact ⟨e, rfl⟩
  | ok rows =>
    rw [reader.read_eq] at hread
    obtain ⟨row, hrow⟩ := exists_ok_mapM_iff.1 ⟨rows, hread⟩ record hrecord
    rw [he] at hrow
    cases hrow

theorem read_fits (hnames : (columns.map (·.name)).Nodup) {answer : reader.Answer}
    (hsound : ∀ record ∈ reader.records answer, reader.Sound record) {rows : List Row}
    (h : reader.asking.read columns answer = .ok rows) : ∀ row ∈ rows, FitsRow columns row := by
  rw [reader.read_eq_ok_iff] at h
  generalize reader.records answer = records at hsound h
  induction h with
  | nil => exact List.forall_mem_nil _
  | cons hrow _ ih =>
    obtain ⟨hrecord, hrest⟩ := List.forall_mem_cons.1 hsound
    exact List.forall_mem_cons.2 ⟨reader.fits hnames hrecord hrow, ih hrest⟩

end Reader

end Store

open Store

/-- A row that fits the column of a metric has a value of it. -/
theorem Metric.readRow_of_fits (metric : Metric) {row : Row}
    (h : FitsRow [metric.column] row) : ∃ v, metric.readRow row = .ok v := by
  obtain _ | @⟨_, ⟨key, v⟩, _, _, ⟨hname, hvalue⟩, _ | _⟩ := h
  obtain rfl : key = metric.column.name := hname
  have hget : Json.get? metric.column.name [(metric.column.name, v)] = some v := by
    simp [Json.get?]
  obtain ⟨-, hnull⟩ | hholds := hvalue
  · cases metric <;> cases hnull
  · obtain hkind | hkind := metric.kind_column
    · rw [hkind] at hholds
      obtain ⟨hi⟩ := hholds
      exact ⟨_, readRow_ok_iff.2 (.count hkind hget hi)⟩
    · rw [hkind] at hholds
      obtain ⟨hx⟩ := hholds
      exact ⟨_, readRow_ok_iff.2 (.amount hkind hget)⟩

/-- Either store of a deployment. -/
inductive AnyStore (m : Type → Type) where
  | row (s : RowStore m)
  | column (s : ColumnStore m)

namespace AnyStore

variable {m : Type → Type} [Monad m]

def executor (clock : Clock m) : AnyStore m → Executor m
  | .row s => s.executor clock
  | .column s => s.executor clock

def reader : AnyStore m → Reader m
  | .row (.sqlite s) => s.reader
  | .row (.postgres s) => s.reader
  | .column (.duckdb s) => s.reader
  | .column (.clickhouse s) => s.reader

theorem executor_eq (store : AnyStore m) (clock : Clock m) :
    store.executor clock = store.reader.asking.executor clock store.reader.limit := by
  rcases store with (s | s) | (s | s) <;> rfl

/--
Whatever a store has answered is read completely or not at all: one row for each of its rows,
in their order, each with the declared columns and with values that these may have. So the one
column of a metric has a value of the metric in every row.
-/
theorem fetch_fits [LawfulMonad m] (store : AnyStore m) (clock : Clock m) (q : Query)
    (columns : List ResultColumn) (hnames : (columns.map (·.name)).Nodup) :
    let reader := store.reader
    (store.executor clock).fetch q columns =
        (· >>= reader.asking.read columns) <$> reader.asking.heard clock reader.limit q ∧
      (∀ answer : reader.Answer,
        (∀ rows, reader.asking.read columns answer = .ok rows ↔
          List.Forall₂ (fun record row => reader.row columns record = .ok row)
            (reader.records answer) rows) ∧
        (∀ record ∈ reader.records answer, ∀ e, reader.row columns record = .error e →
          ∃ e, reader.asking.read columns answer = .error e) ∧
        ((∀ record ∈ reader.records answer, reader.Sound record) →
          ∀ rows, reader.asking.read columns answer = .ok rows →
            (∀ row ∈ rows, FitsRow columns row) ∧
            ∀ metric : Metric, columns = [metric.column] →
              ∃ values, rows.mapM metric.readRow = .ok values)) ∧
      ∀ (body : List UInt8) (rows : List Row), readRowBytes columns body = .ok rows →
        List.Forall₂ (fun t row => rowOf columns t = .ok row ∧ FitsRow columns row)
          (Json.forest (Json.tokensOfBytes body)) rows := by
  intro reader
  refine ⟨?_, fun answer => ⟨reader.read_eq_ok_iff answer,
    fun record hrecord e => reader.read_fails hrecord, fun hsound rows hread => ?_⟩,
    fun body rows => Clickhouse.readRowBytes_fits hnames⟩
  · rw [executor_eq]
    exact Asking.fetch_eq _ clock _ q columns
  · have hfits := reader.read_fits hnames hsound hread
    refine ⟨hfits, ?_⟩
    rintro metric rfl
    exact exists_ok_mapM_iff.2 fun row hrow => metric.readRow_of_fits (hfits row hrow)

/-- What a server says that has counted three rows. -/
def countedThree : Answer Postgres.SqlType := ⟨[("count", .int8)], [[.int 3]]⟩

/-- A server that says so whatever it is asked. -/
def counting : Postgres.Handle Id where
  session := { fetch := fun _ _ => return countedThree, script := fun _ => return, close := () }
  pool := ⟨20, 2, 30, 600, 1800⟩
  limit := 30000

theorem fetch_fits_count :
    let column := Metric.totalRequests.column
    let rows : List Row := [[("count", .number (.int 3))]]
    ([column].map (·.name)).Nodup ∧ counting.asking.read [column] countedThree = .ok rows ∧
      (∀ row ∈ rows, FitsRow [column] row) ∧
      ∃ values, rows.mapM Metric.totalRequests.readRow = .ok values := by
  intro column rows
  let store : AnyStore Id := .row (.postgres counting)
  have hnames : ([column].map (·.name)).Nodup := by decide
  have hread : counting.asking.read [column] countedThree = .ok rows := rfl
  have hsound : ∀ record ∈ store.reader.records countedThree, store.reader.Sound record := by
    refine List.forall_mem_singleton.2 (List.forall_mem_singleton.2 ?_)
    rintro i ⟨⟩
    exact ⟨fun _ => rfl, nofun⟩
  let clock : Clock Id := { now := ⟨0, 0⟩, within := fun _ act => some act }
  obtain ⟨-, hanswer, -⟩ := fetch_fits store clock ⟨.postgres, "", []⟩ [column] hnames
  obtain ⟨hrows, hvalues⟩ := (hanswer countedThree).2.2 hsound rows hread
  exact ⟨hnames, hread, hrows, hvalues .totalRequests rfl⟩

end AnyStore

end RequestLog
