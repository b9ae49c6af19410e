import Mathlib.Data.List.Basic
import RequestLog.Proofs.Text.Search
import RequestLog.Schema.Tables
import RequestLog.Text.Blank

/-!
# What the texts of a schema make

A store reads a script statement by statement, each up to its semicolon, and from the
words of a statement it knows which table is made, or which index on which table, and whether
one of the name that is there already is left alone (`Making`). A script with a statement that
says something else is not read at all.

Whatever its tables and indexes are, the script of a schema makes them in their order, and
each of them only where it is missing, so the script can be run again at any point:
`ofScript_script`. A server that takes one statement at a time makes the one thing that it
is told to: `Definition.ofStatement?_text`. All that is needed for either is that names
hold neither blanks, nor semicolons, nor question marks (`Definition.inert`). An index needs
its table, which has to be made before it (`Making.founded`).
-/

namespace RequestLog.Schema

/-- A table or an index that a statement makes. -/
structure Making where
  name : String
  /-- The table that gets an index; where a table is made there is none. -/
  indexed : Option String
  /-- Whether what is there already under the name is left alone. -/
  unlessThere : Bool
  deriving DecidableEq

namespace Making

/-- The word that a text begins with. -/
def wordIn (cs : List Char) : String := String.ofList (cs.takeWhile (!Text.isBlank ·))

def behindWord (cs : List Char) : List Char := Text.trimStart (cs.dropWhile (!Text.isBlank ·))

/-- A name, and the columns in parentheses. -/
def table? (unlessThere : Bool) (cs : List Char) : Option Making :=
  if (behindWord cs).head? = some '(' then some ⟨wordIn cs, none, unlessThere⟩ else none

/-- A name, and the table with the columns in parentheses. -/
def index? (unlessThere : Bool) (cs : List Char) : Option Making :=
  (Text.after? "ON ".toList (behindWord cs)).bind fun on =>
    if (behindWord on).head? = some '(' then some ⟨wordIn cs, some (wordIn on), unlessThere⟩
    else none

def guarded (make? : Bool → List Char → Option Making) (cs : List Char) : Option Making :=
  match Text.after? "IF NOT EXISTS ".toList cs with
  | some rest => make? true rest
  | none => make? false cs

/-- What a statement makes. -/
def ofStatement? (cs : List Char) : Option Making :=
  match Text.after? "CREATE TABLE ".toList cs with
  | some rest => guarded table? rest
  | none => (Text.after? "CREATE INDEX ".toList cs).bind (guarded index?)

def ofParts? : List (List Char) → Option (List Making)
  | [] => some []
  | part :: rest =>
      if (Text.trimStart part).isEmpty then ofParts? rest
      else do
        let made ← ofStatement? (Text.trimStart part)
        let others ← ofParts? rest
        return made :: others

def ofScript? (text : String) : Option (List Making) := ofParts? (Text.splitAt ';' text.toList)

/-- What a definition makes where it is missing. -/
def of : Definition → Making
  | .table t => ⟨t.name, none, true⟩
  | .index i => ⟨i.name, some i.table, true⟩

/-- Whether every index finds its table, among some that are there or those made before it. -/
def founded (tables : List String) : List Making → Bool
  | [] => true
  | m :: rest =>
      match m.indexed with
      | none => founded (m.name :: tables) rest
      | some table => tables.contains table && founded tables rest

end Making

/-! ## Texts without marks -/

/-- A text that neither ends a statement nor has a place for an argument. -/
def inert (s : String) : Bool := s.toList.all fun c => c != ';' && c != '?'

theorem not_mem_of_inert {s : String} (h : inert s = true) : ';' ∉ s.toList ∧ '?' ∉ s.toList := by
  rw [inert, List.all_eq_true] at h
  exact ⟨fun hc => absurd (h _ hc) (by decide), fun hc => absurd (h _ hc) (by decide)⟩

@[simp] theorem inert_append (s t : String) : inert (s ++ t) = (inert s && inert t) := by
  simp [inert]

theorem inert_intercalate {sep : String} {l : List String} (hsep : inert sep = true)
    (h : ∀ s ∈ l, inert s = true) : inert (String.intercalate sep l) = true := by
  match l with
  | [] => rfl
  | [s] => simpa using h s (List.mem_singleton_self s)
  | s :: t :: rest =>
      rw [String.intercalate_cons_cons, inert_append, inert_append, hsep,
        h s List.mem_cons_self, inert_intercalate hsep fun u hu => h u (List.mem_cons_of_mem s hu)]
      rfl

theorem inert_commaList {l : List String} (h : ∀ s ∈ l, inert s = true) :
    inert (Sql.commaList l) = true := inert_intercalate (by decide) h

theorem inert_intText (i : Int) : inert (Decimal.intText i) = true := by
  have hdigit (c : Char) (hc : c ∈ Nat.toDigits 10 i.natAbs) : (c != ';' && c != '?') = true := by
    have hc := Nat.isDigit_of_mem_toDigits (by decide) (Nat.le_refl 10) hc
    rw [Bool.and_eq_true, bne_iff_ne, bne_iff_ne]
    constructor <;> (rintro rfl; exact absurd hc (by decide))
  rw [inert, Decimal.intText, String.toList_ofList, List.all_append, Bool.and_eq_true,
    List.all_eq_true, List.all_eq_true]
  refine ⟨?_, hdigit⟩
  split
  · exact List.forall_mem_singleton.2 rfl
  · exact List.forall_mem_nil _

/-! ## Statements -/

def StoredColumn.inert (c : StoredColumn) : Bool :=
  Schema.inert c.name && c.references.all fun r => Schema.inert r.table && Schema.inert r.column

def Engine.inert (e : Engine) : Bool :=
  Schema.inert e.name && e.partition.all Schema.inert && Schema.inert e.order

/-- A name that is one word. -/
def isWord (s : String) : Bool := s.toList.all (!Text.isBlank ·) && inert s

def StoredTable.inert (t : StoredTable) : Bool :=
  isWord t.name && t.columns.all (·.inert) && t.key.all Schema.inert && t.engine.all (·.inert)

def Index.inert (i : Index) : Bool :=
  isWord i.name && isWord i.table && i.columns.all Schema.inert

def Definition.inert : Definition → Bool
  | .table t => t.inert
  | .index i => i.inert

/-- What ends the text of a definition. A server of engines is told its tables without. -/
def Definition.mark : Definition → String
  | .table t => if t.engine.isNone then ";" else ""
  | .index _ => ";"

theorem StoredType.inert_word (b : Backend) (type : StoredType) :
    inert (type.word b) = true := by
  cases type <;> cases b <;> decide

theorem StoredColumn.inert_text {c : StoredColumn} (h : c.inert = true) (b : Backend) :
    Schema.inert (c.text b) = true := by
  obtain ⟨hname, hreferences⟩ := Bool.and_eq_true_iff.1 h
  have hword := StoredType.inert_word b c.type
  have hflags : ∀ s ∈ (if c.nullable || c.key then [] else ["NOT NULL"])
      ++ (if c.key then ["PRIMARY KEY"] else []), Schema.inert s = true := by
    cases c.nullable <;> cases c.key <;> decide
  have honly : ∀ s ∈ (c.only.map fun i => s!"CHECK ({c.name} = {Decimal.intText i})").toList,
      Schema.inert s = true := by
    cases c.only with
    | none => nofun
    | some i =>
        refine List.forall_mem_singleton.2 ?_
        simp only [inert_append, toString, hname, inert_intText]
        rfl
  have hrefers : ∀ s ∈ (c.references.map fun r =>
      s!"REFERENCES {r.table} ({r.column}) ON DELETE CASCADE").toList, Schema.inert s = true := by
    cases hr : c.references with
    | none => nofun
    | some r =>
        rw [hr, Option.all_some, Bool.and_eq_true] at hreferences
        refine List.forall_mem_singleton.2 ?_
        simp only [inert_append, toString, hreferences]
        rfl
  unfold StoredColumn.text
  cases b with
  | clickhouse =>
      cases c.nullable <;>
        simp only [inert_append, toString, hname, hword, if_true, Bool.false_eq_true,
          if_false] <;> rfl
  | sqlite | duckdb | postgres =>
      refine inert_intercalate rfl ?_
      simp only [List.forall_mem_append] at hflags ⊢
      exact ⟨⟨⟨⟨by simp [hname, hword], hflags.1⟩, hflags.2⟩, honly⟩, hrefers⟩

theorem inert_lines {margin : String} {l : List String} (hmargin : inert margin = true)
    (h : ∀ s ∈ l, inert s = true) : inert (lines margin l) = true := by
  refine inert_intercalate rfl (List.forall_mem_map.2 fun s hs => ?_)
  rw [inert_append, hmargin, h s hs]
  rfl

/-- What stands behind the name in the text of a table, up to the semicolon if it has one. -/
def StoredTable.body (b : Backend) (t : StoredTable) : String :=
  let columns := t.columns.map (·.text b)
  match t.engine with
  | none =>
      let key := if t.key.isEmpty then [] else [s!"PRIMARY KEY ({Sql.commaList t.key})"]
      "(\n" ++ lines "    " (columns ++ key) ++ "\n)"
  | some e =>
      let partition := match e.partition with
        | some p => s!"\n    PARTITION BY {p}"
        | none => ""
      "(\n" ++ lines "        " columns
        ++ s!"\n    ) ENGINE = {e.name}{partition}\n    ORDER BY {e.order}"

theorem StoredTable.text_eq (b : Backend) (t : StoredTable) :
    t.text b = "CREATE TABLE IF NOT EXISTS " ++ (t.name ++ (" " ++ t.body b)) ++
      (if t.engine.isNone then ";" else "") := by
  unfold StoredTable.text StoredTable.body
  cases t.engine with
  | none =>
      simp only [toString, String.append_assoc]
      rfl
  | some e =>
      simp only [toString, String.append_assoc, Option.isNone_some, Bool.false_eq_true, if_false,
        String.append_empty]
      rfl

theorem StoredTable.inert_body {t : StoredTable} (h : t.inert = true) (b : Backend) :
    Schema.inert (t.body b) = true := by
  simp only [inert, Bool.and_eq_true, List.all_eq_true] at h
  obtain ⟨⟨⟨-, hcolumns⟩, hkey⟩, hengine⟩ := h
  have hcolumn : ∀ s ∈ t.columns.map (·.text b), Schema.inert s = true :=
    List.forall_mem_map.2 fun c hc => StoredColumn.inert_text (hcolumns c hc) b
  have hkeys : ∀ s ∈ (if t.key.isEmpty then [] else [s!"PRIMARY KEY ({Sql.commaList t.key})"]),
      Schema.inert s = true := by
    split
    · nofun
    · refine List.forall_mem_singleton.2 ?_
      simp only [inert_append, toString, inert_commaList hkey]
      rfl
  unfold StoredTable.body
  cases he : t.engine with
  | none =>
      have hlines : Schema.inert (lines "    " _) = true :=
        inert_lines rfl (List.forall_mem_append.2 ⟨hcolumn, hkeys⟩)
      simp only [inert_append, hlines]
      rfl
  | some e =>
      rw [he, Option.all_some, Engine.inert, Bool.and_eq_true, Bool.and_eq_true] at hengine
      obtain ⟨⟨hname, hpartition⟩, horder⟩ := hengine
      have hpart : Schema.inert (match e.partition with
          | some p => s!"\n    PARTITION BY {p}"
          | none => "") = true := by
        cases hp : e.partition with
        | none => rfl
        | some p =>
            rw [hp, Option.all_some] at hpartition
            simp only [inert_append, toString, hpartition]
            rfl
      have hlines : Schema.inert (lines "        " _) = true := inert_lines rfl hcolumn
      simp only [inert_append, toString, hlines, hname, horder] at hpart ⊢
      rw [hpart]
      rfl

theorem StoredTable.body_opens (b : Backend) (t : StoredTable) :
    ∃ rest, (t.body b).toList = '(' :: rest := by
  unfold StoredTable.body
  cases t.engine <;> exact ⟨_, by simp only [String.toList_append]; rfl⟩

/-- What stands behind the name in the text of an index, up to the semicolon. -/
def Index.body (i : Index) (margin : String) : String :=
  margin ++ ("ON " ++ (i.table ++ (" (" ++ Sql.commaList i.columns ++ ")")))

/-- The text of an index may be broken before its table. -/
theorem Index.text_eq (i : Index) : ∃ margin ∈ [" ", "\n    "],
    i.text = "CREATE INDEX IF NOT EXISTS " ++ (i.name ++ i.body margin) ++ ";" := by
  dsimp only [Index.text, Index.body]
  split
  · exact ⟨" ", by decide, by simp only [toString, String.append_assoc]; rfl⟩
  · exact ⟨"\n    ", by decide, by simp only [toString, String.append_assoc]; rfl⟩

/-! ## What a statement makes -/

/-- The words of a text, whatever follows. -/
theorem Making.wordIn_append {word : String} (h : isWord word = true) {c : Char}
    (hc : Text.isBlank c = true) (rest : List Char) :
    wordIn (word.toList ++ c :: rest) = word ∧
      behindWord (word.toList ++ c :: rest) = Text.trimStart rest := by
  rw [isWord, Bool.and_eq_true, List.all_eq_true] at h
  refine ⟨?_, ?_⟩
  · rw [wordIn, List.takeWhile_append_of_pos h.1, List.takeWhile_cons_of_neg (by simp [hc]),
      List.append_nil, String.ofList_toList]
  · rw [behindWord, List.dropWhile_append_of_pos h.1, List.dropWhile_cons_of_neg (by simp [hc]),
      Text.trimStart, List.dropWhile_cons_of_pos hc]
    rfl

theorem ofStatement?_table {name : String} (h : isWord name = true) (rest : List Char) :
    Making.ofStatement? ("CREATE TABLE IF NOT EXISTS ".toList ++
      (name.toList ++ ' ' :: '(' :: rest)) = some ⟨name, none, true⟩ := by
  have hhead : "CREATE TABLE IF NOT EXISTS ".toList =
      "CREATE TABLE ".toList ++ "IF NOT EXISTS ".toList := rfl
  obtain ⟨hword, hbehind⟩ := Making.wordIn_append h (c := ' ') rfl ('(' :: rest)
  have hopens : Text.trimStart ('(' :: rest) = '(' :: rest := rfl
  rw [hhead, List.append_assoc, Making.ofStatement?, Text.after?_append]
  simp only [Making.guarded, Text.after?_append, Making.table?, hword, hbehind, hopens,
    List.head?_cons, if_true]

theorem ofStatement?_index {name table : String} (hname : isWord name = true)
    (htable : isWord table = true) {margin : String} (hmargin : margin ∈ [" ", "\n    "])
    (rest : List Char) :
    Making.ofStatement? ("CREATE INDEX IF NOT EXISTS ".toList ++ (name.toList ++
      (margin.toList ++ ("ON ".toList ++ (table.toList ++ ' ' :: '(' :: rest))))) =
        some ⟨name, some table, true⟩ := by
  have hhead : "CREATE INDEX IF NOT EXISTS ".toList =
      "CREATE INDEX ".toList ++ "IF NOT EXISTS ".toList := rfl
  have hother (cs : List Char) :
      Text.after? "CREATE TABLE ".toList ("CREATE INDEX ".toList ++ cs) = none := rfl
  have hmargin (cs : List Char) : Making.wordIn (name.toList ++ (margin.toList ++ cs)) = name ∧
      Making.behindWord (name.toList ++ (margin.toList ++ cs)) = Text.trimStart cs := by
    obtain rfl | rfl : margin = " " ∨ margin = "\n    " := by simpa using hmargin
    · exact Making.wordIn_append hname (c := ' ') rfl cs
    · exact Making.wordIn_append hname (c := '\n') rfl (' ' :: ' ' :: ' ' :: ' ' :: cs)
  obtain ⟨hword, hbehind⟩ := hmargin ("ON ".toList ++ (table.toList ++ ' ' :: '(' :: rest))
  obtain ⟨hword', hbehind'⟩ := Making.wordIn_append htable (c := ' ') rfl ('(' :: rest)
  have hon (cs : List Char) : Text.trimStart ("ON ".toList ++ cs) = "ON ".toList ++ cs := rfl
  have hopens : Text.trimStart ('(' :: rest) = '(' :: rest := rfl
  rw [hhead, List.append_assoc, Making.ofStatement?, hother, Text.after?_append]
  simp only [Making.guarded, Option.bind_some, Text.after?_append, Making.index?, hword, hbehind,
    hon, hword', hbehind', hopens, List.head?_cons, if_true]

theorem StoredTable.text_read {t : StoredTable} (h : t.inert = true) (b : Backend) :
    ∃ body : String, t.text b = "CREATE " ++ body ++ (if t.engine.isNone then ";" else "") ∧
      Schema.inert body = true ∧ ∀ rest,
        Making.ofStatement? (("CREATE " ++ body).toList ++ rest) = some ⟨t.name, none, true⟩ := by
  have hbody := StoredTable.inert_body h b
  obtain ⟨more, hopens⟩ := t.body_opens b
  simp only [inert, Bool.and_eq_true] at h
  have hname := (Bool.and_eq_true_iff.1 h.1.1.1).2
  refine ⟨"TABLE IF NOT EXISTS " ++ (t.name ++ (" " ++ t.body b)), ?_, ?_, fun rest => ?_⟩
  · have hhead : "CREATE TABLE IF NOT EXISTS " = "CREATE " ++ "TABLE IF NOT EXISTS " := rfl
    rw [text_eq, hhead]
    simp only [String.append_assoc]
  · rw [inert_append, inert_append, inert_append, hname, hbody]
    rfl
  · have hread := ofStatement?_table h.1.1.1 (more ++ rest)
    simpa [hopens] using hread

theorem Index.text_read {i : Index} (h : i.inert = true) :
    ∃ body : String, i.text = "CREATE " ++ body ++ ";" ∧ Schema.inert body = true ∧ ∀ rest,
      Making.ofStatement? (("CREATE " ++ body).toList ++ rest) =
        some ⟨i.name, some i.table, true⟩ := by
  obtain ⟨margin, hmargin, htext⟩ := i.text_eq
  simp only [inert, Bool.and_eq_true, List.all_eq_true] at h
  obtain ⟨⟨hname, htable⟩, hcolumns⟩ := h
  have hblank : Schema.inert margin = true := by
    obtain rfl | rfl : margin = " " ∨ margin = "\n    " := by simpa using hmargin
    · rfl
    · rfl
  refine ⟨"INDEX IF NOT EXISTS " ++ (i.name ++ i.body margin), ?_, ?_, fun rest => ?_⟩
  · have hhead : "CREATE INDEX IF NOT EXISTS " = "CREATE " ++ "INDEX IF NOT EXISTS " := rfl
    rw [htext, hhead]
    simp only [String.append_assoc]
  · simp only [Index.body, inert_append, hblank, (Bool.and_eq_true_iff.1 hname).2,
      (Bool.and_eq_true_iff.1 htable).2, inert_commaList hcolumns]
    rfl
  · have hread := ofStatement?_index hname htable hmargin
      ((Sql.commaList i.columns).toList ++ ')' :: rest)
    simpa [Index.body] using hread

/-- The text of a definition is read as what it makes, with or without what ends it. -/
theorem Definition.text_read {d : Definition} (h : d.inert = true) (b : Backend) :
    ∃ body : String, d.text b = "CREATE " ++ body ++ d.mark ∧ Schema.inert body = true ∧
      ∀ rest, Making.ofStatement? (("CREATE " ++ body).toList ++ rest) = some (.of d) := by
  cases d with
  | table t => exact StoredTable.text_read h b
  | index i => exact Index.text_read h

/-! ## Scripts -/

/-- Blanks make nothing. -/
theorem ofParts?_blank {cs : List Char} (h : ∀ c ∈ cs, Text.isBlank c = true) :
    Making.ofParts? (Text.splitAt ';' cs) = some [] := by
  have hfree : ';' ∉ cs := fun hmem => absurd (h _ hmem) (by decide)
  have htrim : Text.trimStart cs = [] := by
    rw [Text.trimStart, ← List.append_nil cs, List.dropWhile_append_of_pos h, List.dropWhile_nil]
  rw [Text.splitAt_of_not_mem hfree, Making.ofParts?, htrim]
  rfl

/-- A statement behind blanks, and the rest of the script behind its semicolon. -/
theorem ofParts?_statement {d : Definition} (hinert : d.inert = true) (hmark : d.mark = ";")
    (b : Backend) {lead : List Char} (hlead : ∀ c ∈ lead, Text.isBlank c = true)
    (rest : List Char) :
    Making.ofParts? (Text.splitAt ';' (lead ++ ((d.text b).toList ++ rest))) =
      (Making.ofParts? (Text.splitAt ';' rest)).map (.of d :: ·) := by
  obtain ⟨body, htext, hbody, hread⟩ := d.text_read hinert b
  have hread := hread []
  rw [List.append_nil] at hread
  have htrim : Text.trimStart (lead ++ ("CREATE " ++ body).toList) =
      ("CREATE " ++ body).toList := by
    rw [Text.trimStart, List.dropWhile_append_of_pos hlead, String.toList_append]
    rfl
  have hnonempty : ("CREATE " ++ body).toList.isEmpty = false := by
    rw [String.toList_append]
    rfl
  have hfree : ';' ∉ lead ++ ("CREATE " ++ body).toList := by
    rw [List.mem_append, String.toList_append, List.mem_append, not_or, not_or]
    exact ⟨fun hmem => absurd (hlead _ hmem) (by decide), by decide, (not_mem_of_inert hbody).1⟩
  have hsplit : lead ++ ((d.text b).toList ++ rest) =
      (lead ++ ("CREATE " ++ body).toList) ++ ';' :: rest := by
    rw [htext, hmark]
    simp
  rw [hsplit, Text.splitAt_append hfree, Making.ofParts?, htrim, hnonempty, hread]
  cases Making.ofParts? (Text.splitAt ';' rest) <;> rfl

/-- Behind blanks, the rest of a script is read as what it was laid out from. -/
theorem ofParts?_behind {ds : List Definition} (hinert : ∀ d ∈ ds, d.inert = true)
    (hmark : ∀ d ∈ ds, d.mark = ";") (b : Backend) {lead : List Char}
    (hlead : ∀ c ∈ lead, Text.isBlank c = true) :
    Making.ofParts? (Text.splitAt ';' (lead ++
      ("\n\n".toList.intercalate (ds.map fun d => (d.text b).toList) ++ ['\n']))) =
      some (ds.map .of) := by
  have hblank : ∀ c ∈ ['\n'], Text.isBlank c = true := List.forall_mem_singleton.2 rfl
  induction ds generalizing lead with
  | nil => exact ofParts?_blank (List.forall_mem_append.2 ⟨hlead, hblank⟩)
  | cons d rest ih =>
      have hrest : ∃ lead' : List Char, (∀ c ∈ lead', Text.isBlank c = true) ∧
          "\n\n".toList.intercalate ((d :: rest).map fun d => (d.text b).toList) ++ ['\n'] =
            (d.text b).toList ++ (lead' ++
              ("\n\n".toList.intercalate (rest.map fun d => (d.text b).toList) ++ ['\n'])) := by
        cases rest with
        | nil => exact ⟨[], nofun, by simp⟩
        | cons d' rest =>
            refine ⟨['\n', '\n'], ?_, by simp⟩
            exact List.forall_mem_cons.2 ⟨rfl, List.forall_mem_singleton.2 rfl⟩
      obtain ⟨lead', hlead', hrest⟩ := hrest
      rw [hrest, ofParts?_statement (hinert d List.mem_cons_self) (hmark d List.mem_cons_self) b
        hlead, ih (fun d hd => hinert d (List.mem_cons_of_mem _ hd))
          (fun d hd => hmark d (List.mem_cons_of_mem _ hd)) hlead']
      rfl

/-- The script of a schema makes its tables and indexes in their order, each of them where it
is missing, and nothing else. -/
theorem ofScript_script {ds : List Definition} (hinert : ∀ d ∈ ds, d.inert = true)
    (hmark : ∀ d ∈ ds, d.mark = ";") (b : Backend) :
    Making.ofScript? (script b ds) = some (ds.map .of) := by
  have hlead : ∀ c ∈ ['\n'], Text.isBlank c = true := List.forall_mem_singleton.2 rfl
  rw [← ofParts?_behind hinert hmark b hlead, Making.ofScript?, script]
  simp [String.toList_intercalate, Function.comp_def]

/-! ## The schemas of the backends -/

/-- The names of the tables of a schema, in their order. -/
def tableNames (b : Backend) : List String := (tables (schema b)).map (·.name)

def indexNames (b : Backend) : List String := (indexes (schema b)).map (·.name)

/-- What is to be made of a schema. -/
def makings (b : Backend) : List Making := (schema b).map .of

theorem inert_schema (b : Backend) : ∀ d ∈ schema b, d.inert = true := by
  cases b <;> exact List.all_eq_true.1 (by decide)

theorem versionTable_mem (b : Backend) : versionTableName ∈ tableNames b := by
  cases b <;> decide

theorem makings_founded (b : Backend) : Making.founded [] (makings b) = true := by
  cases b <;> decide

theorem makings_unlessThere (b : Backend) : ∀ m ∈ makings b, m.unlessThere = true :=
  List.forall_mem_map.2 fun d _ => by cases d <;> rfl

theorem table_mem_makings {b : Backend} {name : String} (h : name ∈ tableNames b) :
    ⟨name, none, true⟩ ∈ makings b := by
  obtain ⟨t, ht, rfl⟩ := List.mem_map.1 h
  obtain ⟨d, hd, hdef⟩ := List.mem_filterMap.1 ht
  cases d with
  | table t' =>
      cases hdef
      exact List.mem_map_of_mem hd
  | index i => cases hdef

theorem index_mem_makings {b : Backend} {name : String} (h : name ∈ indexNames b) :
    ∃ table, ⟨name, some table, true⟩ ∈ makings b := by
  obtain ⟨i, hi, rfl⟩ := List.mem_map.1 h
  obtain ⟨d, hd, hdef⟩ := List.mem_filterMap.1 hi
  cases d with
  | table t => cases hdef
  | index i' =>
      cases hdef
      exact ⟨_, List.mem_map_of_mem hd⟩

theorem statements_script {b : Backend} (h : b ≠ .clickhouse) :
    statements b = [script b (schema b)] ∧
      Making.ofScript? (script b (schema b)) = some (makings b) := by
  have hmark : ∀ d ∈ schema b, d.mark = ";" := by
    cases b with
    | clickhouse => exact absurd rfl h
    | sqlite | duckdb | postgres => decide
  refine ⟨?_, ofScript_script (inert_schema b) hmark b⟩
  cases b with
  | clickhouse => exact absurd rfl h
  | sqlite | duckdb | postgres => rfl

/-- The server of engines is told to make one table at a time. -/
theorem statements_clickhouse :
    (statements .clickhouse).map (fun text => Making.ofStatement? text.toList) =
      (makings .clickhouse).map some := by
  rw [statements, makings, List.map_map, List.map_map]
  refine List.map_congr_left fun d hd => ?_
  obtain ⟨body, htext, -, hread⟩ := d.text_read (inert_schema .clickhouse d hd) .clickhouse
  rw [Function.comp_apply, htext, String.toList_append, hread]
  rfl

theorem table_of_statement {text : String} (h : text ∈ statements .clickhouse) :
    ∃ name, Making.ofStatement? text.toList = some ⟨name, none, true⟩ := by
  have hread : Making.ofStatement? text.toList ∈ (makings .clickhouse).map some := by
    rw [← statements_clickhouse]
    exact List.mem_map_of_mem h
  obtain ⟨m, hm, hread⟩ := List.mem_map.1 hread
  have htables : ∀ m ∈ makings .clickhouse, m = ⟨m.name, none, true⟩ := by decide
  exact ⟨m.name, by rw [← hread, ← htables m hm]⟩

theorem inert_statement {text : String} (h : text ∈ statements .clickhouse) :
    inert text = true := by
  obtain ⟨d, hd, rfl⟩ := List.mem_map.1 h
  obtain ⟨body, htext, hbody, -⟩ := d.text_read (inert_schema .clickhouse d hd) .clickhouse
  have hmark : ∀ d ∈ schema .clickhouse, d.mark = "" := by decide
  rw [htext, hmark d hd, inert_append, inert_append, hbody]
  rfl

end RequestLog.Schema
