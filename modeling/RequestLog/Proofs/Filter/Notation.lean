import RequestLog.Proofs.Filter.Document
import RequestLog.Proofs.Instant.Stamped
import RequestLog.Sql.Query

/-!
# Notations of an instant

An instant of whole milliseconds has two notations in a request, a number of milliseconds and
a local date and time in some zone. It has two places, an end of the time range and an operand
of a column of instants, where it may be one of a list. Both notations stand for the same
instant in both places, and so does what is printed where it is an argument of a query
(`notations_agree`).
-/

namespace RequestLog

/-! ## What is printed for an argument -/

/-- What a query shows for the argument at some place. -/
def Query.shown? (q : Query) (i : Nat) : Option Json :=
  match q.toJson with
  | .object members =>
      match Json.get? "args" members with
      | some (.array items) => items[i]?
      | _ => none
  | _ => none

theorem Scalar.listToJson_eq (items : List Scalar) :
    listToJson items = items.map Scalar.toJson := by
  induction items with
  | nil => rfl
  | cons x rest ih => rw [listToJson, ih, List.map_cons]

theorem Query.shown?_eq (q : Query) (i : Nat) : q.shown? i = q.args[i]?.map Scalar.toJson := by
  rw [← List.getElem?_map, ← Scalar.listToJson_eq]
  rfl

/-- The characters that are printed for a text, at whatever depth, are read as the text. -/
theorem Json.written_indented (depth : Nat) (s : String) :
    (Json.text s).Written (indented depth (.text s)).toList := by
  have hword : Word (.text (.ok s)) ('"' :: (s.toList.flatMap escapedChar ++ ['"'])) :=
    .text (spelledText_escaped s.toList)
  have hspells := Spells.word hword .nil
  rw [List.append_nil] at hspells
  rw [indented, quotedText, String.toList_ofList]
  exact hspells

namespace RequestBody

open Json

/-! ## Values that stand for an instant -/

/-- A value that is the same instant wherever one can stand: as an end of the time range, and
as an operand of a column of instants, alone or among others. -/
structure StandsFor (v : Json) (t : Instant) : Prop where
  moment (room : Nat) :
    ∃ m, decodeMoment room v.tree = .ok m ∧ ∀ field, m.resolve field = .ok t
  plain (room : Nat) : decodeJson room v.tree = .ok v
  operand (field : String) : Filter.operand field Column.createdAt.kind v = .ok (.timestamp t)
  item {field : String} {before after : List Json} {xs ys : List Scalar} :
    Filter.operand field Column.createdAt.kind (.array before) = .ok (.list xs) →
    Filter.operand field Column.createdAt.kind (.array after) = .ok (.list ys) →
    Filter.operand field Column.createdAt.kind (.array (before ++ v :: after)) =
      .ok (.list (xs ++ .timestamp t :: ys))

variable {v : Json} {t : Instant}

theorem operand_list_iff {field : String} {kind : Kind} {items : List Json} {xs : List Scalar} :
    Filter.operand field kind (.array items) = .ok (.list xs) ↔
      List.Forall₂ (fun v x => Filter.singleOperand field kind v = .ok x) items xs := by
  constructor
  · intro h
    obtain ⟨xs', hitems, hxs⟩ := ok_of_map h
    cases hxs
    exact forall₂_of_mapM hitems
  · intro h
    rw [Filter.operand, mapM_of_forall₂ h]
    rfl

theorem WritesInstant.standsFor (h : WritesInstant t v) : StandsFor v t := by
  have hsingle : WritesSingle .createdAt (.timestamp t) v := .timestamp rfl h
  refine ⟨decodeMoment_writes h, toJson_of_single (singleOperand_writes hsingle ""),
    operand_writes (.single hsingle), ?_⟩
  intro field before after xs ys hbefore hafter
  rw [operand_list_iff] at hbefore hafter ⊢
  exact List.rel_append hbefore (.cons (singleOperand_writes hsingle field) hafter)

/-! ## The two notations -/

/-- Milliseconds of the years that have four digits are within those that name an instant. -/
theorem isMillis_of_inYears {ms : Int} (h : Instant.InYears (ms / 1000)) :
    ∃ t : Instant, t.IsMillis ms ∧ t.seconds = ms / 1000 ∧ WritesInstant t (.number (.int ms)) := by
  obtain ⟨hfirst, hend⟩ := h
  rw [Instant.dayNumber_first] at hfirst
  rw [Instant.dayNumber_end] at hend
  have hmillis : Instant.IsMillis ⟨ms / 1000, (ms % 1000).toNat * 1000000⟩ ms :=
    ⟨by dsimp only; omega, by dsimp only; omega⟩
  refine ⟨_, hmillis, rfl, .millis hmillis ?_ ?_⟩
  · rw [Instant.millisRange]; omega
  · rw [Instant.millisRange]; omega

/-- Milliseconds, every writing of their instant in any zone, of which there is one for every
zone in which the year has four digits, and what is printed for the instant: all of them
stand for the same instant. -/
theorem notations_agree (ms : Int) (zone : Instant.Zone)
    (hyears : Instant.InYears (ms / 1000)) (hlocal : Instant.InYears (ms / 1000 + zone.seconds)) :
    ∃ t : Instant, t.IsMillis ms ∧ StandsFor (.number (.int ms)) t ∧
      (∃ (stamp : Instant.Stamp) (text : String), stamp.zone = zone ∧ stamp.instant = t ∧
        stamp.Written text.toList) ∧
      (∀ (stamp : Instant.Stamp) (text : String), stamp.instant = t →
        stamp.Written text.toList → StandsFor (.text text) t) ∧
      ∀ (q : Query) (i : Nat), q.args[i]? = some (Backend.postgres.encodeInstant t) →
        ∃ text, q.shown? i = some (.text text) ∧ StandsFor (.text text) t ∧
          ∀ depth, (Json.text text).Written (indented depth (.text text)).toList := by
  obtain ⟨t, hmillis, hseconds, hnumber⟩ := isMillis_of_inYears hyears
  rw [← hseconds] at hyears hlocal
  refine ⟨t, hmillis, hnumber.standsFor, ?_, fun stamp text hinstant hwritten =>
    WritesInstant.standsFor (.text hwritten hinstant), fun q i harg => ?_⟩
  · obtain ⟨stamp, hzone, hinstant, hwritten⟩ := Instant.exists_stamp hmillis.2 hlocal
    obtain ⟨cs, hcs⟩ := zone.exists_written
    have htext := hwritten cs hcs
    rw [← String.toList_ofList (l := Instant.write 'T' _ ++ cs)] at htext
    exact ⟨stamp, _, hzone, hinstant, htext⟩
  · obtain ⟨stamp, hinstant, hwritten⟩ := Instant.text_written hmillis.2 hyears
    refine ⟨t.text, ?_, WritesInstant.standsFor (.text hwritten hinstant),
      fun depth => written_indented depth t.text⟩
    rw [Query.shown?_eq, harg]
    rfl

/-- A minute before midnight on a leap day, a minute west of universal time. -/
def februaryEnd : Instant.Stamp where
  year := ⟨4, by decide⟩
  month := 2
  day := 29
  hour := ⟨23, by decide⟩
  minute := ⟨59, by decide⟩
  second := ⟨0, by decide⟩
  fraction := ['0', '0', '1']
  zone := .west ⟨0, by decide⟩ ⟨1, by decide⟩
  monthExists := by decide
  dayExists := by decide
  digits := List.all_eq_true.1 rfl
  places := by decide

theorem februaryEnd_instant : februaryEnd.instant = ⟨-62035804800, 1000000⟩ := by
  rw [Instant.Stamp.instant, ← Instant.toDays_eq (by decide) (by decide) (by decide)]
  rfl

/-- In universal time it is the first of March, and so long before 1970 that its milliseconds
are negative. -/
theorem februaryEnd_notations :
    ∃ t : Instant, t.IsMillis (-62035804799999) ∧
      StandsFor (.number (.int (-62035804799999))) t ∧
      StandsFor (.text "0004-02-29T23:59:00.001-00:01") t := by
  have hyears : Instant.InYears (-62035804799999 / 1000) := by
    rw [Instant.InYears, Instant.dayNumber_first, Instant.dayNumber_end]
    decide
  have hlocal : Instant.InYears (-62035804799999 / 1000 + februaryEnd.zone.seconds) := by
    rw [Instant.InYears, Instant.dayNumber_first, Instant.dayNumber_end]
    decide
  obtain ⟨t, hmillis, hnumber, -, htexts, -⟩ := notations_agree _ februaryEnd.zone hyears hlocal
  have ht : februaryEnd.instant = t := by
    obtain ⟨seconds, nanos⟩ := t
    obtain ⟨hcount, hnanos⟩ := hmillis
    rw [februaryEnd_instant, Instant.mk.injEq]
    dsimp only at hcount hnanos
    omega
  have hwritten : februaryEnd.Written "0004-02-29T23:59:00.001-00:01".toList :=
    @Instant.Stamp.Written.mk februaryEnd 'T' _ (by decide) (.west 0 1)
  exact ⟨t, hmillis, hnumber, htexts februaryEnd _ ht hwritten⟩

end RequestBody

end RequestLog
