import RequestLog.Proofs.Config.Layers
import RequestLog.Proofs.Text.Search

/-!
# Where a path that was given leads

A path is compared by its components, as the file system reads it: separators may be
doubled, and a dot means nothing unless the path begins with it. A relative path joined to a
directory adds its components to those of the directory (`components_join`), and an absolute
one replaces the directory altogether.

For a path that begins at the home directory this makes a difference, because what stands
behind the tilde and its slash is joined as it is. It may begin with a slash of its own, and
then the path does not lead below the home directory but from the root.
-/

namespace RequestLog.Config

/-! ## Components -/

inductive Component where
  | root
  /-- The dot that a relative path begins with. -/
  | here
  | name (chars : List Char)
  deriving DecidableEq

/-- The names in a path, among them that of the parent directory. -/
def names (path : List Char) : List Component :=
  ((Text.splitAt '/' path).filter fun part => part ≠ [] && part ≠ ['.']).map .name

def components (path : String) : List Component :=
  if isAbsolute path then .root :: names path.toList
  else if (Text.splitAt '/' path.toList).head? = some ['.'] then .here :: names path.toList
  else names path.toList

/-- A path lies below a directory if it has all components of the directory, and those first. -/
def Below (dir path : String) : Prop := components dir <+: components path

instance (dir path : String) : Decidable (Below dir path) :=
  inferInstanceAs (Decidable (components dir <+: components path))

theorem components_absolute {path : String} (h : isAbsolute path = true) :
    components path = .root :: names path.toList := if_pos h

theorem names_append (front back : List Char) :
    names (front ++ '/' :: back) = names front ++ names back := by
  rw [names, Text.splitAt_append_cons, List.filter_append, List.map_append]
  rfl

/-! ## Joining -/

theorem isAbsolute_iff {path : String} :
    isAbsolute path = true ↔ ∃ rest, path.toList = '/' :: rest := by
  rw [isAbsolute, Text.startsWith_iff]
  exact ⟨fun ⟨rest, h⟩ => ⟨rest, h.symm⟩, fun ⟨rest, h⟩ => ⟨rest, h.symm⟩⟩

theorem join_absolute {dir path : String} (h : isAbsolute path = true) : join dir path = path :=
  if_pos h

/-- Between a directory and a relative path there is a slash, which may be the last one of
the directory. -/
theorem toList_join {dir path : String} (hdir : isAbsolute dir = true)
    (hpath : isAbsolute path = false) :
    ∃ front, (join dir path).toList = front ++ '/' :: path.toList ∧
      (dir.toList = front ∨ dir.toList = front ++ ['/']) := by
  obtain ⟨rest, hrest⟩ := isAbsolute_iff.1 hdir
  -- Joined to no directory at all, a path would stay relative.
  have hempty : dir.isEmpty = false := by
    cases h : dir.isEmpty with
    | false => rfl
    | true =>
        rw [String.isEmpty_iff.1 h] at hrest
        cases hrest
  rw [join, hpath, hempty]
  by_cases hlast : dir.toList.getLast? = some '/'
  · obtain ⟨front, hfront⟩ := List.getLast?_eq_some_iff.1 hlast
    refine ⟨front, ?_, .inr hfront⟩
    simp [hfront]
  · refine ⟨dir.toList, ?_, .inl rfl⟩
    simp [hlast]

theorem isAbsolute_join {dir path : String} (hdir : isAbsolute dir = true) :
    isAbsolute (join dir path) = true := by
  cases hpath : isAbsolute path with
  | true => rwa [join_absolute hpath]
  | false =>
      obtain ⟨rest, hrest⟩ := isAbsolute_iff.1 hdir
      obtain ⟨front, hjoin, hfront⟩ := toList_join hdir hpath
      rw [isAbsolute_iff, hjoin]
      cases front with
      | nil => exact ⟨_, rfl⟩
      | cons c front =>
          obtain h | h := hfront
          all_goals
            rw [h] at hrest
            obtain ⟨rfl, -⟩ := List.cons.inj hrest
            exact ⟨_, rfl⟩

theorem components_join {dir path : String} (hdir : isAbsolute dir = true)
    (hpath : isAbsolute path = false) :
    components (join dir path) = components dir ++ names path.toList := by
  obtain ⟨front, hjoin, hfront⟩ := toList_join hdir hpath
  have hnames : names dir.toList = names front := by
    obtain h | h := hfront
    · rw [h]
    · rw [h, names_append]
      exact List.append_nil _
  rw [components_absolute (isAbsolute_join hdir), components_absolute hdir, hjoin, names_append,
    hnames, List.cons_append]

/-! ## What is given -/

section

variable {p : Places} {text rest : String}

theorem toList_trimmed (text : String) : (Text.trimmed text).toList = Text.trim text.toList :=
  String.toList_ofList

theorem Places.expand_blank (h : Text.trimmed text = "") : p.expand text = p.current := by
  rw [expand, ← toList_trimmed, h]
  rfl

theorem Places.expand_home (h : Text.trimmed text = "~") : p.expand text = p.home := by
  rw [expand, ← toList_trimmed, h]
  rfl

theorem Places.expand_below (h : Text.trimmed text = "~/" ++ rest) :
    p.expand text = join p.home rest := by
  have htrim : Text.trim text.toList = ['~', '/'] ++ rest.toList := by
    rw [← toList_trimmed, h, String.toList_append]
    rfl
  simp only [expand, htrim, Text.after?_append, String.ofList_toList]
  rw [if_neg (by simp), if_neg (by simp)]

theorem Places.expand_other (hblank : Text.trimmed text ≠ "") (hhome : Text.trimmed text ≠ "~")
    (hbelow : Text.startsWith "~/" (Text.trimmed text) = false) :
    p.expand text = join p.current (Text.trimmed text) := by
  have hnone : Text.after? ['~', '/'] (Text.trim text.toList) = none := by
    rw [Text.startsWith, toList_trimmed] at hbelow
    exact if_neg (Bool.eq_false_iff.1 hbelow)
  simp only [expand, hnone]
  rw [if_neg, if_neg]
  · rfl
  · intro h
    exact hhome (by rw [Text.trimmed, h])
  · intro h
    exact hblank (by rw [Text.trimmed, List.isEmpty_iff.1 h])

/-- Where a text leads that is given for a path. -/
structure LeadsTo (p : Places) (text path : String) : Prop where
  absolute : isAbsolute path = true
  home : Text.trimmed text = "~" → path = p.home
  /-- The names behind the tilde are looked up from the home directory. -/
  inside : ∀ rest, Text.trimmed text = "~/" ++ rest → isAbsolute rest = false →
    components path = components p.home ++ names rest.toList
  /-- With one more slash, the home directory does not count. -/
  apart : ∀ rest, Text.trimmed text = "~/" ++ rest → isAbsolute rest = true → path = rest
  below_iff : ∀ rest, Text.trimmed text = "~/" ++ rest →
    (Below p.home path ↔ isAbsolute rest = false ∨ Below p.home rest)
  relative : isAbsolute (Text.trimmed text) = false → Text.trimmed text ≠ "~" →
    Text.startsWith "~/" (Text.trimmed text) = false →
      components path = components (join p.current (Text.trimmed text)) ∧
        (Text.trimmed text ≠ "" → path = join p.current (Text.trimmed text))
  itself : isAbsolute (Text.trimmed text) = true → path = Text.trimmed text

theorem Places.isAbsolute_expand (hhome : isAbsolute p.home = true)
    (hcurrent : isAbsolute p.current = true) : isAbsolute (p.expand text) = true := by
  by_cases hblank : Text.trimmed text = ""
  · rwa [expand_blank hblank]
  by_cases htilde : Text.trimmed text = "~"
  · rwa [expand_home htilde]
  cases hbelow : Text.startsWith "~/" (Text.trimmed text) with
  | true =>
      obtain ⟨rest, hrest⟩ := Text.exists_append_of_startsWith hbelow
      rw [expand_below hrest]
      exact isAbsolute_join hhome
  | false =>
      rw [expand_other hblank htilde hbelow]
      exact isAbsolute_join hcurrent

theorem Places.expand_leadsTo (hhome : isAbsolute p.home = true)
    (hcurrent : isAbsolute p.current = true) : LeadsTo p text (p.expand text) where
  absolute := isAbsolute_expand hhome hcurrent
  home := expand_home
  inside rest hrest hrelative := by
    rw [expand_below hrest, components_join hhome hrelative]
  apart rest hrest habsolute := by
    rw [expand_below hrest, join_absolute habsolute]
  below_iff rest hrest := by
    rw [expand_below hrest]
    cases h : isAbsolute rest with
    | true => simp [join_absolute h]
    | false => simp [Below, components_join hhome h]
  relative hrelative htilde hbelow := by
    by_cases hblank : Text.trimmed text = ""
    -- Nothing is joined for a blank text, and to join it would only add a slash at the end.
    · rw [expand_blank hblank, components_join hcurrent hrelative, hblank]
      exact ⟨(List.append_nil _).symm, fun h => absurd rfl h⟩
    · rw [expand_other hblank htilde hbelow]
      exact ⟨rfl, fun _ => rfl⟩
  itself habsolute := by
    obtain ⟨rest, hrest⟩ := isAbsolute_iff.1 habsolute
    have other {t : String} (ht : t.toList.head? ≠ some '/') : Text.trimmed text ≠ t := by
      rintro rfl
      simp [hrest] at ht
    have hbelow : Text.startsWith "~/" (Text.trimmed text) = false := by
      rw [Text.startsWith, hrest]
      rfl
    rw [expand_other (other (by decide)) (other (by decide)) hbelow, join_absolute habsolute]

end

/-! ## Settings -/

theorem resolve_given_paths (p : Places) (profile overlay : File) (given : Overrides) :
    let s := resolve p ((({} : File).merge profile).merge overlay) given
    s.sqlitePath = Layer.dataFile p
        (said profile overlay given.sqlitePath (·.ofEmbedded (·.sqlite))) sqliteFileName ∧
      s.duckdbPath = Layer.dataFile p
        (said profile overlay given.duckdbPath (·.ofEmbedded (·.duckdb))) duckdbFileName ∧
      s.rulesPath =
        (said profile overlay given.rulesPath (·.ofPricing (·.rulesPath))).map p.expand := by
  rw [resolve, Layer.ofFile_merge, Layer.ofFile_empty_merge, Layer.ofFile_eq, Layer.ofFile_eq]
  exact ⟨rfl, rfl, rfl⟩

/-- Every path that is given for a setting leads where it says, except that one whose tilde is
followed by two slashes need not lie below the home directory. -/
theorem resolve_leadsTo (p : Places) (profile overlay : File) (given : Overrides)
    (hhome : isAbsolute p.home = true) (hcurrent : isAbsolute p.current = true) :
    let s := resolve p ((({} : File).merge profile).merge overlay) given
    (∀ text, said profile overlay given.sqlitePath (·.ofEmbedded (·.sqlite)) = some text →
        LeadsTo p text s.sqlitePath) ∧
      (∀ text, said profile overlay given.duckdbPath (·.ofEmbedded (·.duckdb)) = some text →
        LeadsTo p text s.duckdbPath) ∧
      ∀ text, said profile overlay given.rulesPath (·.ofPricing (·.rulesPath)) = some text →
        ∃ path, s.rulesPath = some path ∧ LeadsTo p text path := by
  obtain ⟨hsqlite, hduckdb, hrules⟩ := resolve_given_paths p profile overlay given
  refine ⟨fun text h => ?_, fun text h => ?_, fun text h => ?_⟩
  · rw [hsqlite, h]
    exact Places.expand_leadsTo hhome hcurrent
  · rw [hduckdb, h]
    exact Places.expand_leadsTo hhome hcurrent
  · rw [hrules, h]
    exact ⟨_, rfl, Places.expand_leadsTo hhome hcurrent⟩

/-- A profile that names its price list by a relative path. -/
def pricedProfile : File := { pricing := some { rulesPath := some "rules/prices.json" } }

theorem homePath_leadsTo :
    let s := resolve samplePlaces ((({} : File).merge pricedProfile).merge {})
      { sqlitePath := some " ~/logs/rows.db " }
    isAbsolute s.sqlitePath = true ∧ Below samplePlaces.home s.sqlitePath ∧
      s.rulesPath = some "/work/rules/prices.json" := by
  obtain ⟨hsqlite, -, hrules⟩ := resolve_leadsTo samplePlaces pricedProfile {}
    { sqlitePath := some " ~/logs/rows.db " } rfl rfl
  have hrows := hsqlite _ rfl
  obtain ⟨path, hpath, hlead⟩ := hrules _ rfl
  have hjoin := (hlead.relative (by decide) (by decide) (by decide)).2 (by decide)
  refine ⟨hrows.absolute, (hrows.below_iff "logs/rows.db" (by decide)).2 (.inl rfl), ?_⟩
  rw [hpath, hjoin]
  rfl

/-- A path that begins with the tilde and a slash, and leads from the root. -/
theorem doubledSlash_apart :
    isAbsolute samplePlaces.home = true ∧ isAbsolute samplePlaces.current = true ∧
      Text.startsWith "~/" (Text.trimmed "~//var/rows.db") = true ∧
      let s := resolve samplePlaces {} { sqlitePath := some "~//var/rows.db" }
      s.sqlitePath = "/var/rows.db" ∧ ¬ Below samplePlaces.home s.sqlitePath := by
  decide

end RequestLog.Config
