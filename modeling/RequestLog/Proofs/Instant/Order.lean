import RequestLog.Instant.Reader
import RequestLog.Proofs.Decimal.Digits
import RequestLog.Proofs.Filter.Check

/-!
# The order of instants and of their microseconds

A store that knows no instants compares microseconds instead, and these keep the
order of instants but for one case. The nanoseconds of a leap second go on beyond a
thousand million while its second stays the one before, so its microseconds reach
into those of the second that follows: an instant early in that second comes later
and has fewer of them (`Instant.overtakes`).

How far they can reach is bounded by what can be read. A fraction has at most nine
digits that count, and second 60 adds one second to it.
-/

namespace RequestLog

namespace Instant

/-! ## What can be read -/

/-- All nanoseconds there are: those of a second, and those of a leap second. -/
def nanosEnd : Nat := 2000000000

theorem fractionNanos_lt {ds : List Char} (h : ∀ c ∈ ds, c.isDigit = true) :
    fractionNanos ds < 1000000000 := by
  have hdigits : ∀ c ∈ ds.take 9, c.isDigit = true :=
    fun c hc => h c (List.mem_of_mem_take hc)
  have hlt := Decimal.spelled_lt hdigits
  have hlen : (ds.take 9).length ≤ 9 := List.length_take_le 9 ds
  rw [fractionNanos]
  have hpow : 10 ^ (ds.take 9).length * 10 ^ (9 - (ds.take 9).length) = 1000000000 := by
    rw [← Nat.pow_add, Nat.add_sub_cancel' hlen]
  calc Decimal.spelled (ds.take 9) * 10 ^ (9 - (ds.take 9).length)
      < 10 ^ (ds.take 9).length * 10 ^ (9 - (ds.take 9).length) :=
        Nat.mul_lt_mul_of_pos_right hlt (Nat.pow_pos (by decide))
    _ = 1000000000 := hpow

theorem nanos_of_readFraction {cs rest : List Char} {nanos : Nat}
    (h : readFraction cs = .ok (nanos, rest)) : nanos < 1000000000 := by
  unfold readFraction at h
  split at h
  · next more =>
      dsimp only at h
      split at h
      · cases h
      · cases h
        exact fractionNanos_lt fun c hc => (List.all_eq_true.1 List.all_takeWhile) c hc
  · cases h
    decide

theorem nanos_of_readTime {cs rest : List Char} {second nanos : Nat}
    (h : readTime cs = .ok ((second, nanos), rest)) : nanos < nanosEnd := by
  obtain ⟨⟨hour, cs₁⟩, -, h⟩ := ok_of_bind h
  obtain ⟨cs₂, -, h⟩ := ok_of_bind h
  obtain ⟨⟨minute, cs₃⟩, -, h⟩ := ok_of_bind h
  obtain ⟨cs₄, -, h⟩ := ok_of_bind h
  obtain ⟨⟨sec, cs₅⟩, -, h⟩ := ok_of_bind h
  obtain ⟨⟨frac, cs₆⟩, hfrac, h⟩ := ok_of_bind h
  have hlt := nanos_of_readFraction hfrac
  dsimp only at h
  split at h <;> split at h
  · cases h
    rw [nanosEnd]
    omega
  · cases h
  · cases h
    rw [nanosEnd]
    omega
  · cases h

theorem nanos_of_read {text : String} {t : Instant} (h : read text = .ok t) :
    t.nanos < nanosEnd := by
  rw [read] at h
  split at h
  · cases h
  · obtain ⟨⟨days, cs₁⟩, -, h⟩ := ok_of_bind h
    obtain ⟨cs₂, -, h⟩ := ok_of_bind h
    obtain ⟨⟨⟨second, nanos⟩, cs₃⟩, htime, h⟩ := ok_of_bind h
    obtain ⟨⟨east, cs₄⟩, -, h⟩ := ok_of_bind h
    have hlt := nanos_of_readTime htime
    dsimp only at h
    split at h
    · cases h
    · split at h
      · cases h
      · cases h
        exact hlt

theorem nanos_of_ofMillis {ms : Int} {t : Instant} (h : ofMillis? ms = some t) :
    t.nanos < nanosEnd := by
  rw [ofMillis?] at h
  split at h
  · cases h
    have hms : (ms % 1000).toNat < 1000 := by omega
    show (ms % 1000).toNat * 1000000 < 2000000000
    omega
  · cases h

/-! ## Microseconds -/

/-- An instant in a leap second, and one early in the second that follows: the first
comes before the second, and has more microseconds. -/
def overtakes (a b : Instant) : Bool :=
  b.seconds = a.seconds + 1 && b.nanos / 1000 + 1000000 < a.nanos / 1000

theorem le_iff {a b : Instant} :
    a.le b = true ↔ a.seconds < b.seconds ∨ a.seconds = b.seconds ∧ a.nanos ≤ b.nanos := by
  simp [le]

theorem overtakes_iff {a b : Instant} :
    a.overtakes b = true ↔
      b.seconds = a.seconds + 1 ∧ b.nanos / 1000 + 1000000 < a.nanos / 1000 := by
  simp [overtakes]

/-- Microseconds are in the order of their instants but for that one case. -/
theorem micros_le_iff {a b : Instant} (h : a.le b = true) (ha : a.nanos < nanosEnd) :
    a.micros ≤ b.micros ↔ a.overtakes b = false := by
  have hover : a.overtakes b = false ↔
      ¬ (b.seconds = a.seconds + 1 ∧ b.nanos / 1000 + 1000000 < a.nanos / 1000) := by
    rw [← overtakes_iff, Bool.not_eq_true]
  rw [hover]
  simp only [micros]
  rw [nanosEnd] at ha
  have hmicros : a.nanos / 1000 < 2000000 := by omega
  rcases le_iff.1 h with hlt | ⟨heq, hle⟩
  · omega
  · have hdiv : a.nanos / 1000 ≤ b.nanos / 1000 := Nat.div_le_div_right hle
    omega

end Instant

end RequestLog
