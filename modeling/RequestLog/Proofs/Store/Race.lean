import RequestLog.Proofs.Store.Embedded

/-!
# Two clients that set up one file

Each of two clients carries out its own program, one statement at a time, and either may be
the next to go on (`Step`). What a transaction has written is seen by nobody else before it
is committed. Two transactions do not write at once: what is to write waits, for however long
the other one is writing, and then starts from what has been committed by then. A transaction
that has only begun holds nothing yet, and these clients read nothing in a transaction, so what
it would read needs no place here (`Hold`).

Who finds the table of the version goes no further, and who does not find it sets up the file,
but looking and setting up are not one step. As long as nothing is committed, both may look
and find nothing (`Overlap`). Then the tables are there by the time the second one writes,
which does no harm, but the row of the version is there as well, and a second one of its key
is refused. The file is set up in any case (`setup_raced`).
-/

namespace RequestLog.Store.Sqlite

open Relational Schema Dialogue

inductive Side where
  | left
  | right
  deriving DecidableEq

def Side.other : Side → Side
  | .left => .right
  | .right => .left

theorem Side.other_ne (i : Side) : i.other ≠ i := by cases i <;> decide

theorem Side.other_other (i : Side) : i.other.other = i := by cases i <;> rfl

theorem Side.eq_or_other (i j : Side) : j = i ∨ j = i.other := by
  cases i <;> cases j <;> decide

def writes : Statement → Bool
  | .define _ | .insert _ _ => true
  | _ => false

def commits : Statement → Bool
  | .commit => true
  | _ => false

/-- What a client holds of a file: no transaction, one that has not written yet, or one with
all that it has written. -/
inductive Hold where
  | idle
  | begun
  | writing (pending : Database)

namespace Hold

def isWriting : Hold → Bool
  | .writing _ => true
  | _ => false

def connection (committed : Database) : Hold → Connection
  | .idle => ⟨committed, none⟩
  | .begun => ⟨committed, some committed⟩
  | .writing pending => ⟨pending, some committed⟩

/-- What is held behind a statement that has left the connection as it is now. -/
def behind (h : Hold) (q : Statement) (c : Connection) : Hold :=
  if c.before.isNone then .idle
  else if h.isWriting || writes q then .writing c.database
  else .begun

end Hold

structure Party where
  heard : List Reply := []
  hold : Hold := .idle

/-- A client behind a statement, and what is committed then. -/
def Party.say (p : Party) (committed : Database) (q : Statement) : Party × Database :=
  let run := (p.hold.connection committed).run q
  (⟨p.heard ++ [run.1.mapError ofFault], p.hold.behind q run.2⟩,
    if run.2.before.isNone then run.2.database else committed)

structure Race where
  database : Database := {}
  party : Side → Party := fun _ => {}

def Race.say (race : Race) (i : Side) (q : Statement) : Race where
  database := ((race.party i).say race.database q).2
  party j := if j = i then ((race.party i).say race.database q).1 else race.party j

abbrev Event := Side × Statement

section

variable {α : Type} (program : Side → Dialogue Statement Reply α)

/-- One of the two goes on. -/
inductive Step : Race → Event → Race → Prop
  | say {race : Race} {i : Side} {q : Statement} :
      ((program i).after (race.party i).heard).asks = some q →
      (writes q = true → (race.party i.other).hold.isWriting = false) →
      Step race (i, q) (race.say i q)

/-- What has been said, and where both are then. -/
inductive Reaches : List Event → Race → Prop
  | start : Reaches [] {}
  | step {trace : List Event} {race race' : Race} {e : Event} :
      Reaches trace race → Step program race e race' → Reaches (trace ++ [e]) race'

def Race.result (race : Race) (i : Side) : Option α :=
  ((program i).after (race.party i).heard).result

/-- Whether the two can go on in some order. -/
def Race.Admits (race : Race) : List Event → Prop
  | [] => True
  | (i, q) :: rest =>
      ((program i).after (race.party i).heard).asks = some q ∧
        (writes q = true → (race.party i.other).hold.isWriting = false) ∧
        (race.say i q).Admits rest

variable {program}

theorem Reaches.follow {trace : List Event} {race : Race} (h : Reaches program trace race)
    {rest : List Event} (hrest : race.Admits program rest) :
    Reaches program (trace ++ rest) (rest.foldl (fun race e => race.say e.1 e.2) race) := by
  induction rest generalizing trace race with
  | nil => rwa [List.append_nil]
  | cons e rest ih =>
      obtain ⟨hasks, hwrites, hrest⟩ := hrest
      rw [List.append_cons]
      exact ih (h.step (.say hasks hwrites)) hrest

end

variable {race race' : Race} {trace : List Event} {i : Side} {q : Statement} {p : Party}

@[simp] theorem Race.say_self (race : Race) (i : Side) (q : Statement) :
    (race.say i q).party i = ((race.party i).say race.database q).1 := if_pos rfl

@[simp] theorem Race.say_other (race : Race) (i : Side) (q : Statement) :
    (race.say i q).party i.other = race.party i.other := if_neg i.other_ne

/-- Nobody writes who has not written before and does not write now. -/
theorem Party.writing_of_say {committed : Database}
    (h : (p.say committed q).1.hold.isWriting = true) :
    p.hold.isWriting = true ∨ writes q = true := by
  unfold say Hold.behind at h
  dsimp only at h
  split at h
  · cases h
  · split at h
    · next hwrites => exact Bool.or_eq_true_iff.1 hwrites
    · cases h

/-! ## What has been said -/

def look : Statement := .hasTable versionTableName

/-- What was said before anything was committed. -/
def early (trace : List Event) : List Event := trace.takeWhile fun e => !commits e.2

/-- Both have looked before anything was committed. -/
def Overlap (trace : List Event) : Prop := ∀ i, (i, look) ∈ early trace

theorem early_of_quiet (h : ∀ e ∈ trace, commits e.2 = false) (rest : List Event) :
    early (trace ++ rest) = trace ++ early rest :=
  List.takeWhile_append_of_pos fun e he => by rw [h e he]; rfl

theorem early_of_committed (h : ∃ e ∈ trace, commits e.2 = true) (rest : List Event) :
    early (trace ++ rest) = early trace := by
  obtain ⟨e, he, hcommits⟩ := h
  rw [early, List.takeWhile_append, if_neg]
  · rfl
  · intro hlength
    have hall : early trace = trace := (List.takeWhile_prefix _).eq_of_length hlength
    have hquiet := List.all_eq_true.1 List.all_takeWhile e (hall.symm ▸ he)
    rw [hcommits] at hquiet
    cases hquiet

theorem look_mem_early {j : Side} : (j, look) ∈ early [(i, q)] ↔ j = i ∧ q = look := by
  constructor
  · intro h
    have hmem := List.mem_singleton.1 ((List.takeWhile_prefix _).subset h)
    exact ⟨congrArg Prod.fst hmem, (congrArg Prod.snd hmem).symm⟩
  · rintro ⟨rfl, rfl⟩
    exact List.mem_singleton_self _

/-! ## Setting up -/

def absence : Reply := .ok ⟨["count"], [[.int 0]]⟩

def presence : Reply := .ok ⟨["count"], [[.int 1]]⟩

def carried : Reply := .ok .empty

def current : Reply := .ok ⟨["version"], [[.int currentVersion]]⟩

/-- There is a row for the version already. -/
def duplicate : PoolError :=
  ofFault ⟨1555, "UNIQUE constraint failed: schema_version.id"⟩

/-- All that the schema defines is there, and one row for the version. -/
structure SetUp (now : Instant) (db : Database) : Prop where
  tables : db.tables.map (·.definition) = tables (schema .sqlite)
  indexes : db.indexes = indexes (schema .sqlite)
  version : (db.table? versionTableName).map (·.rows) =
    some [[.int 1, .int currentVersion, .int now.micros]]

theorem installed_setUp (now : Instant) : SetUp now (installed now) := ⟨rfl, rfl, rfl⟩

/-- Who goes on while nothing is committed, and what it says next. -/
inductive Early (now : Instant) : Party → Statement → Prop
  | fresh : Early now {} look
  | absent : Early now ⟨[absence], .idle⟩ .begin
  | begun : Early now ⟨[absence, carried], .begun⟩ (.define (schema .sqlite))
  | defined : Early now ⟨[absence, carried, carried], .writing made⟩ (record now)
  | recorded :
      Early now ⟨[absence, carried, carried, carried], .writing (installed now)⟩ .commit

/-- Who has committed what it set up. -/
def winner : Party := ⟨[absence, carried, carried, carried, carried], .idle⟩

/-- Who comes after something was committed, and what it says next, if anything. -/
inductive Late (won own : Instant) : Party → Option Statement → Prop
  | fresh : Late won own {} (some look)
  | found : Late won own ⟨[presence], .idle⟩ (some (.query versionQuery []))
  | ready : Late won own ⟨[presence, current], .idle⟩ none
  | absent : Late won own ⟨[absence], .idle⟩ (some .begin)
  | begun : Late won own ⟨[absence, carried], .begun⟩ (some (.define (schema .sqlite)))
  | defined :
      Late won own ⟨[absence, carried, carried], .writing (installed won)⟩ (some (record own))
  | refused :
      Late won own ⟨[absence, carried, carried, .error duplicate], .writing (installed won)⟩
        (some .rollback)
  | failed :
      Late won own ⟨[absence, carried, carried, .error duplicate, carried], .idle⟩ none

variable {now won own : Instant}

theorem Early.asks (h : Early now p q) :
    ((site.migration now).after p.heard).asks = some q := by
  cases h <;> rfl

theorem Late.asks {q : Option Statement} (h : Late won own p q) :
    ((site.migration own).after p.heard).asks = q := by
  cases h <;> rfl

/-- It has looked, or looks now, and finds nothing. -/
theorem Early.told (h : Early now p q) :
    (p.heard.head? = some absence ∨ q = look) ∧
      (p.say {} q).1.heard.head? = some absence := by
  cases h with
  | fresh => exact ⟨.inr rfl, rfl⟩
  | _ => exact ⟨.inl rfl, rfl⟩

theorem presence_ne_absence : some presence ≠ some absence := nofun

/-- Who has not looked yet will not find nothing. -/
theorem Late.told (h : Late won own p (some q)) :
    (p.say (installed won) q).1.heard.head? = some absence ↔ p.heard.head? = some absence := by
  cases h with
  | fresh => exact iff_of_false presence_ne_absence nofun
  | _ => exact Iff.rfl

/-- Who goes on while nothing is committed goes on in the same way, or commits. -/
theorem Early.say (h : Early now p q) :
    (commits q = false ∧ ∃ p' q', Early now p' q' ∧ p.say {} q = (p', {})) ∨
      (commits q = true ∧ p.hold.isWriting = true) ∧ p.say {} q = (winner, installed now) := by
  cases h with
  | fresh => exact .inl ⟨rfl, _, _, .absent, rfl⟩
  | absent => exact .inl ⟨rfl, _, _, .begun, rfl⟩
  | begun => exact .inl ⟨rfl, _, _, .defined, rfl⟩
  | defined => exact .inl ⟨rfl, _, _, .recorded, rfl⟩
  | recorded => exact .inr ⟨⟨rfl, rfl⟩, rfl⟩

/-- Who comes after something was committed changes nothing. -/
theorem Late.say (h : Late won own p (some q)) :
    commits q = false ∧ ∃ p' q', Late won own p' q' ∧
      p.say (installed won) q = (p', installed won) := by
  cases h with
  | fresh => exact ⟨rfl, _, _, .found, rfl⟩
  | found => exact ⟨rfl, _, _, .ready, rfl⟩
  | absent => exact ⟨rfl, _, _, .begun, rfl⟩
  | begun => exact ⟨rfl, _, _, .defined, rfl⟩
  | defined => exact ⟨rfl, _, _, .refused, rfl⟩
  | refused => exact ⟨rfl, _, _, .failed, rfl⟩

/-- Who has not written yet when something is committed comes late. -/
theorem Early.late (h : Early own p q) (hp : p.hold.isWriting = false) :
    Late won own p (some q) := by
  cases h with
  | fresh => exact .fresh
  | absent => exact .absent
  | begun => exact .begun
  | defined => cases hp
  | recorded => cases hp

/-! ## Every order of the two -/

/-- Each of the two sets up the file, by its own clock. -/
def migrations (now : Side → Instant) (i : Side) :
    Dialogue Statement Reply (Except OpenError Unit) := site.migration (now i)

/-- Nothing is committed. -/
structure Racing (now : Side → Instant) (trace : List Event) (race : Race) : Prop where
  database : race.database = {}
  quiet : ∀ e ∈ trace, commits e.2 = false
  party : ∀ i, ∃ q, Early (now i) (race.party i) q
  free : ∃ i, (race.party i).hold.isWriting = false

/-- What one of the two has set up is committed. -/
structure Won (now : Side → Instant) (i : Side) (trace : List Event) (race : Race) : Prop where
  database : race.database = installed (now i)
  committed : ∃ e ∈ trace, commits e.2 = true
  winner : race.party i = winner
  late : ∃ q, Late (now i) (now i.other) (race.party i.other) q

/-- Who has looked in time has found nothing, and who has not has not. -/
structure Noted (trace : List Event) (race : Race) : Prop where
  length : ∀ i, trace.length = (race.party i).heard.length + (race.party i.other).heard.length
  told : ∀ i, (i, look) ∈ early trace ↔ (race.party i).heard.head? = some absence

variable {now : Side → Instant}

theorem Noted.step_length (h : Noted trace race) (i : Side) (q : Statement) (j : Side) :
    (trace ++ [(i, q)]).length =
      ((race.say i q).party j).heard.length + ((race.say i q).party j.other).heard.length := by
  have hlength : ((race.party i).say race.database q).1.heard.length =
      (race.party i).heard.length + 1 := List.length_append
  rw [List.length_append, h.length i, List.length_singleton]
  obtain rfl | rfl := i.eq_or_other j
  · rw [Race.say_self, Race.say_other, hlength]
    omega
  · rw [Race.say_other, i.other_other, Race.say_self, hlength]
    omega

theorem Racing.noted (h : Racing now trace race) (hnoted : Noted trace race)
    (hq : Early (now i) (race.party i) q) : Noted (trace ++ [(i, q)]) (race.say i q) where
  length := hnoted.step_length i q
  told j := by
    have hearly : early trace = trace := by
      rw [← List.append_nil trace, early_of_quiet h.quiet]
      rfl
    have htold := hnoted.told j
    rw [hearly] at htold
    rw [early_of_quiet h.quiet, List.mem_append, look_mem_early, htold]
    obtain rfl | rfl := i.eq_or_other j
    · rw [Race.say_self, h.database]
      exact iff_of_true (hq.told.1.imp_right fun hlook => ⟨rfl, hlook⟩) hq.told.2
    · rw [Race.say_other]
      exact or_iff_left fun hother => i.other_ne hother.1

theorem Won.noted (h : Won now i trace race) (hnoted : Noted trace race)
    (hq : Late (now i) (now i.other) (race.party i.other) (some q)) :
    Noted (trace ++ [(i.other, q)]) (race.say i.other q) where
  length := hnoted.step_length i.other q
  told j := by
    rw [early_of_committed h.committed, hnoted.told j]
    obtain rfl | rfl := i.other.eq_or_other j
    · rw [Race.say_self, h.database]
      exact hq.told.symm
    · rw [Race.say_other]

theorem Racing.apart (h : Racing now trace race)
    (hi : (race.party i).hold.isWriting = true) :
    (race.party i.other).hold.isWriting = false := by
  obtain ⟨j, hj⟩ := h.free
  obtain rfl | rfl := i.eq_or_other j
  · rw [hi] at hj
    cases hj
  · exact hj

theorem Racing.step (h : Racing now trace race) (hq : Early (now i) (race.party i) q)
    (hwrites : writes q = true → (race.party i.other).hold.isWriting = false) :
    Racing now (trace ++ [(i, q)]) (race.say i q) ∨
      Won now i (trace ++ [(i, q)]) (race.say i q) := by
  obtain ⟨hcommits, p', q', hp', hsaid⟩ | ⟨⟨hcommits, hwriting⟩, hsaid⟩ := hq.say
  · rw [← h.database] at hsaid
    refine .inl ⟨(congrArg Prod.snd hsaid).trans h.database, ?_, fun j => ?_, ?_⟩
    · exact List.forall_mem_append.2 ⟨h.quiet, List.forall_mem_singleton.2 hcommits⟩
    · obtain rfl | rfl := i.eq_or_other j
      · rw [Race.say_self, hsaid]
        exact ⟨q', hp'⟩
      · rw [Race.say_other]
        exact h.party i.other
    -- Who writes now has written before, and then the other one has not, or had to wait for it.
    · by_cases hwriting : ((race.party i).say race.database q).1.hold.isWriting = true
      · refine ⟨i.other, ?_⟩
        rw [Race.say_other]
        exact (Party.writing_of_say hwriting).elim h.apart hwrites
      · exact ⟨i, by rw [Race.say_self, Bool.eq_false_iff]; exact hwriting⟩
  · rw [← h.database] at hsaid
    refine .inr ⟨congrArg Prod.snd hsaid, ?_, ?_, ?_⟩
    · exact ⟨(i, q), List.mem_append_right _ (List.mem_singleton_self _), hcommits⟩
    · rw [Race.say_self, hsaid]
    · obtain ⟨q', hother⟩ := h.party i.other
      rw [Race.say_other]
      exact ⟨some q', hother.late (h.apart hwriting)⟩

theorem Won.step (h : Won now i trace race)
    (hq : Late (now i) (now i.other) (race.party i.other) (some q)) :
    Won now i (trace ++ [(i.other, q)]) (race.say i.other q) := by
  obtain ⟨hcommits, p', q', hp', hsaid⟩ := hq.say
  rw [← h.database] at hsaid
  obtain ⟨e, he, hcommitted⟩ := h.committed
  have hself := race.say_other i.other q
  rw [i.other_other] at hself
  refine ⟨(congrArg Prod.snd hsaid).trans h.database, ⟨e, List.mem_append_left _ he, hcommitted⟩,
    hself.trans h.winner, q', ?_⟩
  rw [Race.say_self, hsaid]
  exact hp'

/-- Wherever the two are, nothing is committed, or what one of them has set up is. -/
theorem standing (h : Reaches (migrations now) trace race) :
    Noted trace race ∧ (Racing now trace race ∨ ∃ i, Won now i trace race) := by
  induction h with
  | start =>
      exact ⟨⟨fun _ => rfl, fun _ => iff_of_false nofun nofun⟩,
        .inl ⟨rfl, nofun, fun _ => ⟨_, .fresh⟩, .left, rfl⟩⟩
  | step _ hstep ih =>
      obtain ⟨hnoted, hracing | ⟨j, hwon⟩⟩ := ih
      · cases hstep with
        | @say i q hasks hwrites =>
            obtain ⟨q', hq⟩ := hracing.party i
            obtain rfl : q' = q := Option.some.inj (hq.asks.symm.trans hasks)
            refine ⟨hracing.noted hnoted hq, ?_⟩
            exact (hracing.step hq hwrites).imp_right fun hwon => ⟨i, hwon⟩
      · cases hstep with
        | @say i q hasks hwrites =>
            -- The one that has won has nothing more to say.
            obtain rfl | rfl := j.eq_or_other i
            · rw [hwon.winner] at hasks
              cases hasks
            · obtain ⟨q', hq⟩ := hwon.late
              obtain rfl : q' = some q := hq.asks.symm.trans hasks
              exact ⟨hwon.noted hnoted hq, .inr ⟨j, hwon.step hq⟩⟩

/-! ## Where it ends -/

theorem Early.length_le (h : Early own p q) : p.heard.length ≤ 4 := by
  cases h <;> simp

theorem Late.length_le {q : Option Statement} (h : Late won own p q) : p.heard.length ≤ 5 := by
  cases h <;> simp

/-- As long as nothing is committed, one of the two can go on: the one that writes, if one
does. -/
theorem Racing.progress (h : Racing now trace race) :
    ∃ e race', Step (migrations now) race e race' := by
  obtain ⟨i, hi⟩ := h.free
  obtain ⟨q, hq⟩ := h.party i.other
  exact ⟨_, _, .say hq.asks fun _ => by rwa [i.other_other]⟩

/-- Who came late and is done has failed if it had found nothing. -/
theorem Late.result (h : Late won own p none) :
    p.heard.head? = some absence ∧
        ((site.migration own).after p.heard).result = some (.error (.sqlite duplicate)) ∨
      p.heard.head? ≠ some absence ∧
        ((site.migration own).after p.heard).result = some (.ok ()) := by
  cases h with
  | ready => exact .inr ⟨presence_ne_absence, rfl⟩
  | failed => exact .inl ⟨rfl, rfl⟩

theorem Won.overlap_iff (h : Won now i trace race) (hnoted : Noted trace race) :
    Overlap trace ↔ (race.party i.other).heard.head? = some absence := by
  refine ⟨fun hoverlap => (hnoted.told _).1 (hoverlap i.other), fun hother j => ?_⟩
  rw [hnoted.told j]
  obtain rfl | rfl := i.eq_or_other j
  · rw [h.winner]
    rfl
  · exact hother

theorem Won.ends (h : Won now i trace race) (hnoted : Noted trace race) :
    (∃ e race', Step (migrations now) race e race') ∨
      race.result (migrations now) i = some (.ok ()) ∧
      (Overlap trace → race.result (migrations now) i.other =
        some (.error (.sqlite duplicate))) ∧
      (¬Overlap trace → race.result (migrations now) i.other = some (.ok ())) := by
  obtain ⟨q, hq⟩ := h.late
  cases q with
  | some q =>
      refine .inl ⟨_, _, .say hq.asks fun _ => ?_⟩
      rw [i.other_other, h.winner]
      rfl
  | none =>
      have hresult : race.result (migrations now) i = some (.ok ()) := by
        rw [Race.result, h.winner]
        rfl
      rw [h.overlap_iff hnoted]
      obtain ⟨hhead, hother⟩ | ⟨hhead, hother⟩ := hq.result
      · exact .inr ⟨hresult, fun _ => hother, fun hnot => absurd hhead hnot⟩
      · exact .inr ⟨hresult, fun hyes => absurd hyes hhead, fun _ => hother⟩

/-- In whatever order two clients go on that set up one file, both come to an end. One of them
has set it up, and ends well; the other one has changed nothing, and ends well unless both
looked before anything was committed. Then its row for the version is refused. -/
theorem setup_raced (h : Reaches (migrations now) trace race) :
    trace.length ≤ 10 ∧
      ((∃ e race', Step (migrations now) race e race') ∨
        ∃ i, SetUp (now i) race.database ∧
          race.result (migrations now) i = some (.ok ()) ∧
          (Overlap trace → race.result (migrations now) i.other =
            some (.error (.sqlite duplicate))) ∧
          (¬Overlap trace → race.result (migrations now) i.other = some (.ok ()))) := by
  obtain ⟨hnoted, hracing | ⟨i, hwon⟩⟩ := standing h
  · obtain ⟨q, hq⟩ := hracing.party .left
    obtain ⟨q', hq'⟩ := hracing.party .right
    have hlength := hnoted.length .left
    have hleft := hq.length_le
    have hright : (race.party Side.left.other).heard.length ≤ 4 := hq'.length_le
    exact ⟨by omega, .inl hracing.progress⟩
  · obtain ⟨q, hq⟩ := hwon.late
    have hlength := hnoted.length i
    have hother := hq.length_le
    have hself : (race.party i).heard.length = 5 := by rw [hwon.winner]; rfl
    refine ⟨by omega, (hwon.ends hnoted).imp_right fun hends => ⟨i, ?_, hends⟩⟩
    rw [hwon.database]
    exact installed_setUp (now i)

/-- Both look, one sets up the file, and then the other one tries to. -/
def collision : List Event :=
  [(.left, look), (.right, look), (.left, .begin), (.left, .define (schema .sqlite)),
   (.left, record ⟨0, 0⟩), (.left, .commit), (.right, .begin),
   (.right, .define (schema .sqlite)), (.right, record ⟨0, 0⟩), (.right, .rollback)]

def collided : Race := collision.foldl (fun race e => race.say e.1 e.2) {}

theorem collision_reaches : Reaches (migrations fun _ => ⟨0, 0⟩) collision collided :=
  Reaches.start.follow ⟨rfl, nofun, rfl, nofun, rfl, nofun, rfl, fun _ => rfl, rfl, fun _ => rfl,
    rfl, nofun, rfl, nofun, rfl, fun _ => rfl, rfl, fun _ => rfl, rfl, nofun, trivial⟩

theorem collision_overlap : Overlap collision := by
  intro i
  cases i with
  | left => exact .head _
  | right => exact .tail _ (.head _)

theorem collided_over (e : Event) (race : Race) :
    ¬Step (migrations fun _ => ⟨0, 0⟩) collided e race := by
  intro hstep
  cases hstep with
  | @say i q hasks =>
      have hover : ((migrations (fun _ => ⟨0, 0⟩) i).after (collided.party i).heard).asks =
          none := by
        cases i <;> rfl
      rw [hover] at hasks
      cases hasks

theorem collision_refused :
    Reaches (migrations fun _ => ⟨0, 0⟩) collision collided ∧
      ∃ i, SetUp ⟨0, 0⟩ collided.database ∧
        collided.result (migrations fun _ => ⟨0, 0⟩) i = some (.ok ()) ∧
        collided.result (migrations fun _ => ⟨0, 0⟩) i.other =
          some (.error (.sqlite duplicate)) := by
  refine ⟨collision_reaches, ?_⟩
  obtain ⟨-, ⟨e, race, hstep⟩ | ⟨i, hsetUp, hok, hrefused, -⟩⟩ := setup_raced collision_reaches
  · exact absurd hstep (collided_over e race)
  · exact ⟨i, hsetUp, hok, hrefused collision_overlap⟩

/-- Two clients do not always both end well. -/
theorem setup_not_always_well :
    ¬∀ (now : Side → Instant) (trace : List Event) (race : Race),
      Reaches (migrations now) trace race → (∀ e race', ¬Step (migrations now) race e race') →
        (∀ i, race.result (migrations now) i = some (.ok ())) ∧
          ∃ time, SetUp time race.database := by
  intro hall
  obtain ⟨hwell, -⟩ := hall _ _ _ collision_reaches collided_over
  have hrefused : collided.result (migrations fun _ => ⟨0, 0⟩) .right =
      some (.error (.sqlite duplicate)) := rfl
  rw [hwell] at hrefused
  cases hrefused

end RequestLog.Store.Sqlite
