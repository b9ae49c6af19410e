import RequestLog.Proofs.Decimal.Text
import RequestLog.Store.Row

/-!
# What a column reads

A column reads a value as what the value denotes in the column's kind
(`ResultKind.Denotes`): itself if it is of the kind, the integer or the nearest double
that a text spells, the nearest double of an integer, or the truth value that one and
zero stand for. Null is denoted by null, and by a text of which the double is not finite.
Whether null may be there is asked afterwards, of what is denoted.

What a column has read is of its kind, and is read again without any change.
-/

namespace RequestLog

open Decimal (SpellsInt SpellsNumber SpellsWord IsNearest fitsSigned twos ofInt)

/-- The numbers that JSON has: integers of 64 bits, signed or unsigned, and finite doubles. -/
def Json.Number.Proper : Number → Prop
  | .int i => -(twos 63 : Int) ≤ i ∧ i < twos 64
  | .float x => x.isFinite = true

def Json.Proper : Json → Prop
  | .number n => n.Proper
  | _ => True

/-- The double of a number that JSON has is finite. -/
theorem Json.Proper.isFinite_toFloat {n : Number} (h : (Json.number n).Proper) :
    n.toFloat.isFinite = true := by
  cases n with
  | float x => exact h
  | int i =>
      have hsize : i.natAbs ≤ 2 ^ 64 := by
        have htwos : twos 63 = 2 ^ 63 ∧ twos 64 = 2 ^ 64 := ⟨rfl, rfl⟩
        rw [Proper, Number.Proper, htwos.1, htwos.2] at h
        omega
      have hpower : ((2 ^ 64 : Nat) : ℚ) ≤ 2 ^ (1023 : ℤ) := by
        rw [Nat.cast_pow, Nat.cast_ofNat, ← zpow_natCast]
        exact zpow_le_zpow_right₀ one_le_two (by decide)
      exact (Decimal.isNearest_ofInt i).isFinite_of_le ((Nat.cast_le.2 hsize).trans hpower)

/-- A number that is taken for an integer is one already, and of 64 bits. -/
theorem Json.Number.eq_int_of_int64? {n : Number} {i : Int} (h : n.int64? = some i) :
    n = .int i ∧ fitsSigned 64 i = true := by
  cases n with
  | float x => cases h
  | int j =>
      rw [int64?, Option.ite_none_right_eq_some] at h
      obtain ⟨hfits, heq⟩ := h
      cases heq
      exact ⟨rfl, hfits⟩

namespace Store

/-- A value of a kind, in the one form that a row holds it in. -/
inductive ResultKind.Holds : ResultKind → Json → Prop where
  | int {i : Int} : fitsSigned 64 i = true → Holds .int (.number (.int i))
  | float {x : Float} : x.isFinite = true → Holds .float (.number (.float x))
  | text {s : String} : Holds .text (.text s)
  | bool {b : Bool} : Holds .bool (.bool b)

/-- What a value denotes in a kind. -/
inductive ResultKind.Denotes : ResultKind → Json → Json → Prop where
  | null {k : ResultKind} : Denotes k .null .null
  | held {k : ResultKind} {v : Json} : k.Holds v → Denotes k v v
  | spelledInt {s : String} {i : Int} : SpellsInt s.toList i → fitsSigned 64 i = true →
      Denotes .int (.text s) (.number (.int i))
  | nearest {i : Int} {x : Float} : IsNearest (decide (i < 0)) i.natAbs x →
      Denotes .float (.number (.int i)) (.number (.float x))
  | spelledFloat {s : String} {negative : Bool} {q : ℚ} {x : Float} :
      SpellsNumber s.toList negative q → IsNearest negative q x → x.isFinite = true →
      Denotes .float (.text s) (.number (.float x))
  | overflow {s : String} {negative : Bool} {q : ℚ} {x : Float} :
      SpellsNumber s.toList negative q → IsNearest negative q x → x.isFinite = false →
      Denotes .float (.text s) .null
  | word {s : String} : SpellsWord s.toList → Denotes .float (.text s) .null
  | zero : Denotes .bool (.number (.int 0)) (.bool false)
  | one : Denotes .bool (.number (.int 1)) (.bool true)

namespace ResultKind

variable {k : ResultKind} {v w : Json}

theorem ofFloat_of_isFinite {x : Float} (h : x.isFinite = true) :
    Json.ofFloat x = .number (.float x) := if_pos h

theorem ofFloat_of_not_isFinite {x : Float} (h : x.isFinite = false) :
    Json.ofFloat x = .null := if_neg (by rw [h]; exact Bool.false_ne_true)

/-- A double that is not finite becomes null, and any other is of the kind. -/
theorem ofFloat_holds (x : Float) : Json.ofFloat x = .null ∨ float.Holds (Json.ofFloat x) := by
  cases hfinite : x.isFinite with
  | true =>
      rw [ofFloat_of_isFinite hfinite]
      exact .inr (.float hfinite)
  | false => exact .inl (ofFloat_of_not_isFinite hfinite)

/-- What a value is converted to is of the kind, unless it is null. -/
theorem holds_of_convert? (h : ResultColumn.convert? k v = some w) :
    w = .null ∨ k.Holds w := by
  unfold ResultColumn.convert? at h
  split at h
  · cases h
    exact .inl rfl
  · obtain ⟨i, hi, rfl⟩ := Option.map_eq_some_iff.1 h
    exact .inr (.int (Json.Number.eq_int_of_int64? hi).2)
  · obtain ⟨i, hi, rfl⟩ := Option.map_eq_some_iff.1 h
    exact .inr (.int (Decimal.readInt64_eq_some_iff.1 hi).2)
  · cases h
    exact ofFloat_holds _
  · obtain ⟨x, -, rfl⟩ := Option.map_eq_some_iff.1 h
    exact ofFloat_holds x
  · cases h
    exact .inr .text
  · cases h
    exact .inr .bool
  · cases h
    exact .inr .bool
  · cases h
    exact .inr .bool
  · cases h

theorem convert?_of_holds (h : k.Holds v) : ResultColumn.convert? k v = some v := by
  cases h with
  | int hi => simp only [ResultColumn.convert?, Json.Number.int64?, hi, if_true, Option.map_some]
  | float hx => exact congrArg some (ofFloat_of_isFinite hx)
  | text => rfl
  | bool => rfl

theorem convert?_of_denotes (hv : v.Proper) (h : k.Denotes v w) :
    ResultColumn.convert? k v = some w := by
  cases h with
  | null => cases k <;> rfl
  | held h => exact convert?_of_holds h
  | spelledInt hs hi =>
      simp only [ResultColumn.convert?, Decimal.readInt64_eq_some_iff.2 ⟨hs, hi⟩, Option.map_some]
  | @nearest i x hx =>
      obtain rfl := hx.unique (Decimal.isNearest_ofInt i)
      have hfinite : (ofInt i).isFinite = true := hv.isFinite_toFloat
      exact congrArg some (ofFloat_of_isFinite hfinite)
  | spelledFloat hs hx hfinite =>
      obtain ⟨y, hy, hnearest⟩ := Decimal.readFloat_number hs
      obtain rfl := hx.unique hnearest
      simp only [ResultColumn.convert?, hy, Option.map_some, ofFloat_of_isFinite hfinite]
  | overflow hs hx hinfinite =>
      obtain ⟨y, hy, hnearest⟩ := Decimal.readFloat_number hs
      obtain rfl := hx.unique hnearest
      simp only [ResultColumn.convert?, hy, Option.map_some, ofFloat_of_not_isFinite hinfinite]
  | word hs =>
      obtain ⟨y, hy, hinfinite⟩ := Decimal.readFloat_word hs
      simp only [ResultColumn.convert?, hy, Option.map_some, ofFloat_of_not_isFinite hinfinite]
  | zero => rfl
  | one => rfl

theorem denotes_of_convert? (hv : v.Proper) (h : ResultColumn.convert? k v = some w) :
    k.Denotes v w := by
  unfold ResultColumn.convert? at h
  split at h
  · cases h
    exact .null
  · obtain ⟨i, hi, rfl⟩ := Option.map_eq_some_iff.1 h
    obtain ⟨rfl, hfits⟩ := Json.Number.eq_int_of_int64? hi
    exact .held (.int hfits)
  · next s =>
      obtain ⟨i, hi, rfl⟩ := Option.map_eq_some_iff.1 h
      obtain ⟨hs, hfits⟩ := Decimal.readInt64_eq_some_iff.1 hi
      exact .spelledInt hs hfits
  · next n =>
      rw [ofFloat_of_isFinite hv.isFinite_toFloat] at h
      cases h
      cases n with
      | float x => exact .held (.float hv)
      | int i => exact .nearest (Decimal.isNearest_ofInt i)
  · next s =>
      obtain ⟨x, hx, rfl⟩ := Option.map_eq_some_iff.1 h
      obtain ⟨hword, hinfinite⟩ | ⟨negative, q, hs, hnearest⟩ := Decimal.spells_of_readFloat hx
      · rw [ofFloat_of_not_isFinite hinfinite]
        exact .word hword
      · cases hfinite : x.isFinite with
        | true =>
            rw [ofFloat_of_isFinite hfinite]
            exact .spelledFloat hs hnearest hfinite
        | false =>
            rw [ofFloat_of_not_isFinite hfinite]
            exact .overflow hs hnearest hfinite
  · cases h
    exact .held .text
  · cases h
    exact .held .bool
  · cases h
    exact .zero
  · cases h
    exact .one
  · cases h

/-- Converting gives what is denoted, if anything is. -/
theorem convert?_eq_some_iff (hv : v.Proper) :
    ResultColumn.convert? k v = some w ↔ k.Denotes v w :=
  ⟨denotes_of_convert? hv, convert?_of_denotes hv⟩

theorem Denotes.holds (hv : v.Proper) (h : k.Denotes v w) : w = .null ∨ k.Holds w :=
  holds_of_convert? (convert?_of_denotes hv h)

theorem Denotes.unique {w' : Json} (hv : v.Proper) (h : k.Denotes v w) (h' : k.Denotes v w') :
    w = w' := by
  rw [← convert?_eq_some_iff hv] at h h'
  exact Option.some.inj (h.symm.trans h')

theorem Holds.proper (h : k.Holds v) : v.Proper := by
  cases h with
  | @int i hi =>
      have htwos : twos 63 = 2 ^ 63 ∧ twos 64 = 2 ^ 64 := ⟨rfl, rfl⟩
      rw [fitsSigned, Bool.and_eq_true, decide_eq_true_eq, decide_eq_true_eq, htwos.1] at hi
      rw [Json.Proper, Json.Number.Proper, htwos.1, htwos.2]
      omega
  | float hx => exact hx
  | text | bool => trivial

theorem Holds.ne_null (h : k.Holds v) : v ≠ .null := by
  rintro rfl
  cases h

end ResultKind

namespace ResultColumn

variable {c : ResultColumn} {v w : Json}

theorem allow_eq_ok_iff : c.allow v = .ok w ↔ w = v ∧ (w = .null → c.nullable = true) := by
  cases v with
  | null =>
      rw [allow]
      split
      · next h =>
          rw [Except.ok.injEq]
          exact ⟨fun heq => ⟨heq.symm, fun _ => h⟩, fun heq => heq.1.symm⟩
      · next h =>
          refine iff_of_false nofun ?_
          rintro ⟨rfl, hnull⟩
          exact h (hnull rfl)
  | _ =>
      rw [allow, Except.ok.injEq]
      · refine ⟨?_, fun heq => heq.1.symm⟩
        rintro rfl
        exact ⟨rfl, nofun⟩
      · exact nofun

theorem read_of_denotes (hv : v.Proper) (h : c.kind.Denotes v w) :
    c.read (some v) = c.allow w := by
  simp only [read, (ResultKind.convert?_eq_some_iff hv).2 h]

theorem read_of_not_denotes (hv : v.Proper) (h : ¬∃ w, c.kind.Denotes v w) :
    c.read (some v) = .error (.wrongType c.name c.kind.name v.compact) := by
  cases hconvert : convert? c.kind v with
  | none =>
      simp only [read, hconvert]
      rfl
  | some w => exact absurd ⟨w, (ResultKind.convert?_eq_some_iff hv).1 hconvert⟩ h

theorem read_eq_ok_iff (hv : v.Proper) :
    c.read (some v) = .ok w ↔ c.kind.Denotes v w ∧ (w = .null → c.nullable = true) := by
  by_cases hdenotes : ∃ w, c.kind.Denotes v w
  · obtain ⟨w', hw'⟩ := hdenotes
    rw [read_of_denotes hv hw', allow_eq_ok_iff]
    refine and_congr_left fun _ => ⟨?_, fun hw => hw.unique hv hw'⟩
    rintro rfl
    exact hw'
  · rw [read_of_not_denotes hv hdenotes]
    exact iff_of_false nofun fun h => hdenotes ⟨w, h.1⟩

theorem read_of_holds (h : c.kind.Holds v) : c.read (some v) = .ok v :=
  (read_eq_ok_iff h.proper).2 ⟨.held h, fun hnull => absurd hnull h.ne_null⟩

/-- What has been read is read again as it is. -/
theorem read_read (hv : v.Proper) (h : c.read (some v) = .ok w) : c.read (some w) = .ok w := by
  obtain ⟨hdenotes, hnull⟩ := (read_eq_ok_iff hv).1 h
  obtain rfl | hholds := hdenotes.holds hv
  · exact (read_eq_ok_iff (v := .null) trivial).2 ⟨.null, hnull⟩
  · exact read_of_holds hholds

/--
A column reads what is given for it as what it denotes, and null only where the column may
be null; reading once more changes nothing. Otherwise it says what is wrong: there is no
value, there is a null, or the value denotes nothing of the kind.
-/
theorem read_coerces (c : ResultColumn) :
    c.read none = .error (.missingColumn c.name) ∧
      ∀ v : Json, v.Proper →
        (∀ w, c.read (some v) = .ok w ↔
          c.kind.Denotes v w ∧ (w = .null → c.nullable = true)) ∧
        (∀ w, c.read (some v) = .ok w →
          (w = .null ∨ c.kind.Holds w) ∧ c.read (some w) = .ok w) ∧
        (c.kind.Holds v → c.read (some v) = .ok v) ∧
        (c.kind.Denotes v .null → c.nullable = false →
          c.read (some v) = .error (.unexpectedNull c.name)) ∧
        ((¬∃ w, c.kind.Denotes v w) →
          c.read (some v) = .error (.wrongType c.name c.kind.name v.compact)) := by
  refine ⟨rfl, fun v hv => ⟨fun w => read_eq_ok_iff hv, fun w hw => ⟨?_, read_read hv hw⟩,
    read_of_holds, fun hnull hnullable => ?_, read_of_not_denotes hv⟩⟩
  · exact ((read_eq_ok_iff hv).1 hw).1.holds hv
  · rw [read_of_denotes hv hnull, allow, hnullable]
    rfl

/-- An integer that a store wrote as a text, with a sign and a zero in front of it. -/
theorem read_countText :
    let count : ResultColumn := ⟨"count", .int, false⟩
    (Json.text "+042").Proper ∧
      count.read (some (.text "+042")) = .ok (.number (.int 42)) ∧
      count.read (some (.number (.int 42))) = .ok (.number (.int 42)) := by
  intro count
  obtain ⟨hiff, hagain, -⟩ := (read_coerces count).2 (.text "+042") trivial
  have hdigits : Json.AreDigits ['0', '4', '2'] := ⟨by decide, List.all_eq_true.1 rfl⟩
  have hspells : SpellsInt "+042".toList 42 := .mk .plus hdigits
  have hread := (hiff (.number (.int 42))).2 ⟨.spelledInt hspells rfl, nofun⟩
  exact ⟨trivial, hread, (hagain _ hread).2⟩

end ResultColumn

end Store

end RequestLog
