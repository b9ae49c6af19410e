import RequestLog.Metric.Basic
import RequestLog.Proofs.Text.Search
import RequestLog.Store.Clickhouse.Client

/-!
# Failures over HTTP that may pass

Whether a failure of a pool may pass is seen by what has failed. A failure over HTTP is
looked at through its message, which has up to two parts: the client's own words, which
tell what has failed, and behind them the reason that somebody else gave. No word that is
looked for goes across the blank between the two, so each part can be searched by itself.

The client's words settle it for a network that cannot be used and for an answer that does
not come (`Unreached`). For everything else it is the reason that counts, and for a refused
query that is what the server says, which may quote the query. So a query can be refused
for good and still be taken for one to ask again, by a value that its caller chose.
-/

namespace RequestLog.Store

namespace HttpError

/-- What somebody other than the client said of the failure. -/
def reason? : HttpError → Option String
  | .network reason | .badResponse reason | .custom reason | .schemaMismatch reason
  | .invalidParams reason | .other reason => some reason
  | .timedOut | .noRow => none

/-- The same failure, for another reason where one was given. -/
def withReason (reason : String) : HttpError → HttpError
  | .network _ => .network reason
  | .badResponse _ => .badResponse reason
  | .custom _ => .custom reason
  | .timedOut => .timedOut
  | .noRow => .noRow
  | .schemaMismatch _ => .schemaMismatch reason
  | .invalidParams _ => .invalidParams reason
  | .other _ => .other reason

/-- The server was not reached, or not in time. -/
def Unreached : HttpError → Prop
  | .network _ | .timedOut => True
  | .badResponse _ | .custom _ | .noRow | .schemaMismatch _ | .invalidParams _ | .other _ =>
      False

/-- There is a reason, with one of the words in it that are looked for. -/
def Mentions (e : HttpError) : Prop :=
  ∃ reason, e.reason? = some reason ∧ ∃ word ∈ transientWords, word.toList <:+: reason.toList

theorem unreached_withReason (e : HttpError) (reason : String) :
    (e.withReason reason).Unreached ↔ e.Unreached := by
  cases e <;> exact Iff.rfl

theorem not_mentions {e : HttpError} (h : e.reason? = none) : ¬e.Mentions := by
  rintro ⟨reason, hreason, -⟩
  rw [h] at hreason
  cases hreason

/-! ## The words of a message -/

theorem any_occurs_iff {text : String} :
    (transientWords.any fun word => Text.occurs word text) = true ↔
      ∃ word ∈ transientWords, word.toList <:+: text.toList := by
  simp only [List.any_eq_true, Text.occurs_iff]

theorem mentions_iff {e : HttpError} {reason : String} (h : e.reason? = some reason) :
    e.Mentions ↔ (transientWords.any fun word => Text.occurs word reason) = true := by
  rw [any_occurs_iff, Mentions, h]
  simp

/-- A message of two parts is searched in each. -/
theorem any_occurs_append {message reason : String} (front : String)
    (h : message = front ++ " " ++ reason) :
    (transientWords.any fun word => Text.occurs word message) = true ↔
      (transientWords.any fun word => Text.occurs word front) = true ∨
        (transientWords.any fun word => Text.occurs word reason) = true := by
  have hblank : ∀ word ∈ transientWords, ' ' ∉ word.toList := by decide
  have hlist : message.toList = front.toList ++ ' ' :: reason.toList := by
    rw [h, String.toList_append, String.toList_append, List.append_assoc]
    rfl
  rw [any_occurs_iff, any_occurs_iff, any_occurs_iff, hlist]
  constructor
  · rintro ⟨word, hword, hinfix⟩
    rcases (Text.infix_append_cons_iff (hblank word hword)).1 hinfix with h | h
    · exact .inl ⟨word, hword, h⟩
    · exact .inr ⟨word, hword, h⟩
  · rintro (⟨word, hword, h⟩ | ⟨word, hword, h⟩)
    · exact ⟨word, hword, (Text.infix_append_cons_iff (hblank word hword)).2 (.inl h)⟩
    · exact ⟨word, hword, (Text.infix_append_cons_iff (hblank word hword)).2 (.inr h)⟩

/-- Where the client's words hold none of those that are looked for, the reason decides. -/
theorem transient_of_reason {e : HttpError} {reason : String} (front : String)
    (hmessage : e.message = front ++ " " ++ reason)
    (hreason : e.reason? = some reason)
    (hfront : (transientWords.any fun word => Text.occurs word front) = false) :
    e.transient = true ↔ e.Mentions := by
  rw [transient, any_occurs_append front hmessage, hfront, mentions_iff hreason]
  exact or_iff_right Bool.false_ne_true

theorem transient_iff (e : HttpError) : e.transient = true ↔ e.Unreached ∨ e.Mentions := by
  cases e with
  | network reason =>
    have hmessage : (network reason).message = "network error:" ++ " " ++ reason :=
      congrArg (· ++ reason) (by decide : "network error: " = _)
    exact iff_of_true ((any_occurs_append _ hmessage).2 (.inl (by decide))) (.inl trivial)
  | timedOut => exact iff_of_true (by decide) (.inl trivial)
  | noRow => exact iff_of_false (by decide) (not_or.2 ⟨not_false, not_mentions rfl⟩)
  | badResponse reason =>
    have hmessage : (badResponse reason).message = "bad response:" ++ " " ++ reason :=
      congrArg (· ++ reason) (by decide : "bad response: " = _)
    exact (transient_of_reason _ hmessage rfl (by decide)).trans (or_iff_right not_false).symm
  | custom reason =>
    have hmessage : (custom reason).message =
        "a custom error message from serde:" ++ " " ++ reason :=
      congrArg (· ++ reason) (by decide : "a custom error message from serde: " = _)
    exact (transient_of_reason _ hmessage rfl (by decide)).trans (or_iff_right not_false).symm
  | schemaMismatch reason =>
    have hmessage : (schemaMismatch reason).message = "schema mismatch:" ++ " " ++ reason :=
      congrArg (· ++ reason) (by decide : "schema mismatch: " = _)
    exact (transient_of_reason _ hmessage rfl (by decide)).trans (or_iff_right not_false).symm
  | invalidParams reason =>
    have hmessage : (invalidParams reason).message = "invalid params:" ++ " " ++ reason :=
      congrArg (· ++ reason) (by decide : "invalid params: " = _)
    exact (transient_of_reason _ hmessage rfl (by decide)).trans (or_iff_right not_false).symm
  | other reason => exact (mentions_iff rfl).symm.trans (or_iff_right not_false).symm

end HttpError

/-- Opening and fetching take a failure over HTTP alike, as one that may pass exactly when the
server was not reached or the reason mentions one of the words. So another reason makes no
difference exactly when the server was not reached or both reasons are alike in this. -/
theorem FetchError.retryable_ofHttp (e : HttpError) :
    ((ofHttp e).retryable = true ↔ e.Unreached ∨ e.Mentions) ∧
      (OpenError.clickhouse e).transient = (ofHttp e).retryable ∧
      (MetricError.fetch (ofHttp e)).category =
        (if (ofHttp e).retryable then .storeUnavailable else .internal) ∧
      ∀ reason, (ofHttp (e.withReason reason)).retryable = (ofHttp e).retryable ↔
        e.Unreached ∨ ((e.withReason reason).Mentions ↔ e.Mentions) := by
  refine ⟨e.transient_iff, rfl, rfl, fun reason => ?_⟩
  rw [Bool.eq_iff_iff]
  refine Iff.trans (iff_congr (e.withReason reason).transient_iff e.transient_iff) ?_
  rw [e.unreached_withReason]
  by_cases h : e.Unreached
  · simp only [h, true_or]
  · simp only [h, false_or]

/-! ## A value that makes a refusal pass -/

/-- The answer of a server whose column cannot be compared with the value. -/
def refusal (value : String) : Clickhouse.Response :=
  ⟨500, .text s!"Code: 53. DB::Exception: Cannot convert string '{value}' to type UInt8"⟩

/-- One query for two values, refused in the same words about either: by what is reported, the
one for `connection` is worth asking again. -/
theorem refusal_retryable_by_value :
    ∃ reason reason', (refusal "gpt-4").accepted = .error (.badResponse reason) ∧
      (refusal "connection").accepted = .error (.badResponse reason') ∧
      (MetricError.fetch (.ofHttp (.badResponse reason))).category = .internal ∧
      (MetricError.fetch (.ofHttp (.badResponse reason'))).category = .storeUnavailable ∧
      ¬∀ (e : HttpError) (reason : String),
        (FetchError.ofHttp (e.withReason reason)).retryable = (FetchError.ofHttp e).retryable := by
  obtain ⟨reason, haccepted, hlasts⟩ : ∃ reason,
      (refusal "gpt-4").accepted = .error (.badResponse reason) ∧
        (FetchError.ofHttp (.badResponse reason)).retryable = false := ⟨_, rfl, by decide⟩
  obtain ⟨reason', haccepted', hpasses⟩ : ∃ reason,
      (refusal "connection").accepted = .error (.badResponse reason) ∧
        (FetchError.ofHttp (.badResponse reason)).retryable = true := ⟨_, rfl, by decide⟩
  refine ⟨reason, reason', haccepted, haccepted', if_neg (Bool.eq_false_iff.1 hlasts),
    if_pos hpasses, fun h => ?_⟩
  have halike := h (.badResponse reason) reason'
  rw [hlasts] at halike
  exact absurd (hpasses.symm.trans halike) (by decide)

end RequestLog.Store
