import RequestLog.Proofs.Sql.Placeholder

/-!
# Texts paired with their values

A text that is put together from parts is paired with the values that the parts
bound: its placeholders are numbered from one to their count, each once, and each
stands where its value was meant. The last of these is said by writing the values
out. With every argument written as the value of its number, the text becomes the
one in which each part has its own values in their places.

`Written b n text vs inlined` is this for a part behind `n` arguments, so that parts
can be put together; `Paired` is what it comes to for a whole text.
-/

namespace RequestLog.Sql

/-- A text of expressions that bind `vs` behind `n` other values. With the values
written out, it is `inlined`. -/
def Written (b : Backend) (n : Nat) (text : String) (vs : List Scalar)
    (inlined : (Scalar → String) → String) : Prop :=
  ∃ es : List Expr,
    text = String.join (es.map (Expr.text b.argumentText)) ∧
    es.flatMap Expr.arguments = List.range' (n + 1) vs.length ∧
    Numbered b text.toList (List.range' (n + 1) vs.length) ∧
    ∀ render before after, before.length = n →
      String.join (es.map (Expr.text (inPlace (before ++ vs ++ after) render))) =
        inlined render

/-- A text and the values of its arguments. -/
structure Paired (b : Backend) (text : String) (values : List Scalar)
    (inlined : (Scalar → String) → Option String) : Prop where
  dollars : b = .postgres →
    dollarTokens text.toList = (List.range' 1 values.length).map b.argumentText
  marks : b ≠ .postgres → text.toList.count '?' = values.length
  apart : b ≠ .postgres → ¬['?', '?'] <:+: text.toList
  inPlace : ∃ es : List Expr,
    text = String.join (es.map (Expr.text b.argumentText)) ∧
    es.flatMap Expr.arguments = List.range' 1 values.length ∧
    ∀ render, inlined render =
      some (String.join (es.map (Expr.text (inPlace values render))))

namespace Written

variable {b : Backend} {n : Nat} {s t sep : String} {vs ws : List Scalar}
variable {i j : (Scalar → String) → String}

theorem of_expr (e : Expr) (hnames : e.names.all free = true)
    (hargs : e.arguments = List.range' (n + 1) vs.length)
    (hinlined : ∀ render before after, before.length = n →
      e.text (Sql.inPlace (before ++ vs ++ after) render) = i render) :
    Written b n (b.textOf e) vs i := by
  refine ⟨[e], by simp [Backend.textOf], by simpa using hargs, ?_, ?_⟩
  · rw [← hargs]
    exact e.numbered b (List.all_eq_true.1 hnames)
  · intro render before after hn
    simpa using hinlined render before after hn

theorem of_fixed {e : Expr} (hnames : e.names.all free = true)
    (hargs : e.arguments = []) (h : e.Fixed) :
    Written b n (b.textOf e) [] fun _ => b.textOf e :=
  of_expr e hnames hargs fun _ _ _ _ => h _ _

theorem of_free (h : free s = true) : Written b n s [] fun _ => s :=
  of_fixed (e := .verbatim s) (by simpa [Expr.names] using h) rfl fun _ _ => rfl

theorem before (hs : free s = true) (h : Written b n t vs i) :
    Written b n (s ++ t) vs fun render => s ++ i render := by
  obtain ⟨es, rfl, hargs, hnumbered, hinlined⟩ := h
  refine ⟨.verbatim s :: es, ?_, ?_, hnumbered.before hs, ?_⟩
  · rw [List.map_cons, String.join_cons]
    rfl
  · rw [List.flatMap_cons, hargs]
    rfl
  · intro render before after hn
    rw [List.map_cons, String.join_cons, hinlined render before after hn]
    rfl

/-- Two parts, the second behind the arguments of the first. -/
theorem between (h : Written b n s vs i) (hsep : separates sep = true)
    (h' : Written b (n + vs.length) t ws j) :
    Written b n (s ++ (sep ++ t)) (vs ++ ws)
      fun render => i render ++ (sep ++ j render) := by
  obtain ⟨es, rfl, hargs, hnumbered, hinlined⟩ := h
  obtain ⟨fs, rfl, hargs', hnumbered', hinlined'⟩ := h'
  have hrange : List.range' (n + 1) (vs ++ ws).length =
      List.range' (n + 1) vs.length ++ List.range' (n + vs.length + 1) ws.length := by
    rw [List.length_append, ← List.range'_append_1]
    congr 2
    omega
  refine ⟨es ++ .verbatim sep :: fs, ?_, ?_, ?_, ?_⟩
  · rw [List.map_append, List.map_cons, String.join_append, String.join_cons]
    rfl
  · rw [List.flatMap_append, List.flatMap_cons, hargs, hargs', hrange]
    rfl
  · rw [hrange]
    exact hnumbered.between hsep hnumbered'
  · intro render before after hn
    have hl := hinlined render before (ws ++ after) hn
    have hr := hinlined' render (before ++ vs) after (by rw [List.length_append, hn])
    rw [List.map_append, List.map_cons, String.join_append, String.join_cons]
    simp only [List.append_assoc] at hl hr ⊢
    rw [hl, hr]
    rfl

theorem behind (h : Written b n s vs i) (hsep : separates sep = true) :
    Written b n (s ++ sep) vs fun render => i render ++ sep := by
  have hall := h.between (t := "") hsep (of_free (by decide))
  simpa using hall

/-- One more part in front of parts with commas between them, if there are any. -/
theorem list {texts : List String} {is : (Scalar → String) → List String}
    (h : Written b n s vs i) (hlength : ∀ render, (is render).length = texts.length)
    (hnone : texts = [] → ws = [])
    (hall : Written b (n + vs.length) (commaList texts) ws
      fun render => commaList (is render)) :
    Written b n (commaList (s :: texts)) (vs ++ ws)
      fun render => commaList (i render :: is render) := by
  cases texts with
  | nil =>
      cases hnone rfl
      have hsingle : (fun render => commaList (i render :: is render)) = i := by
        funext render
        rw [List.eq_nil_of_length_eq_zero (hlength render), commaList_singleton]
      rw [hsingle, List.append_nil, commaList_singleton]
      exact h
  | cons t rest =>
      have hcons : (fun render => commaList (i render :: is render)) =
          fun render => i render ++ (", " ++ commaList (is render)) := by
        funext render
        obtain ⟨u, us, hus⟩ := List.exists_cons_of_length_eq_add_one (hlength render)
        rw [hus, commaList_cons_cons, String.append_assoc]
      rw [hcons, commaList_cons_cons, String.append_assoc]
      exact h.between (by decide) hall

theorem paired (h : Written b 0 s vs i) : Paired b s vs fun render => some (i render) := by
  obtain ⟨es, htext, hargs, hnumbered, hinlined⟩ := h
  refine ⟨?_, fun hb => ?_, fun hb => hnumbered.apart hb, es, htext, hargs, ?_⟩
  · rintro rfl
    exact hnumbered.dollarTokens_eq
  · rw [hnumbered.count_eq hb, List.length_range']
  · intro render
    have hall := hinlined render [] [] rfl
    rw [List.nil_append, List.append_nil] at hall
    rw [hall]

end Written

end RequestLog.Sql
