import RequestLog.Proofs.Store.Clients
import RequestLog.Proofs.Store.Machine
import RequestLog.Proofs.Store.Repeat
import RequestLog.Proofs.Store.Wording

/-!
# Servers that are set up again

A server has no transaction around what sets it up: each statement that succeeds is kept, so
an attempt that fails may leave any of the tables. What carries the proofs is therefore the
version: as long as none is on record the store counts as blank, whatever tables there are,
and every statement of the next attempt can be carried out, because it makes tables only
where they are missing. The version is put down last, so once it is there all tables are.

A text asks for what it says (`Wording.asked`), and one that reaches a server over HTTP is read
with its arguments in their places. The row store is handed its tables and indexes as one
script, of which a failure may leave a part; the column store gets its tables one at a time,
and how far it has come is `Clickhouse.Made`.
-/

namespace RequestLog.Store

open Schema Dialogue

/-! ## The row store of a server -/

namespace Postgres

def session : Session (Dialogue Call Reply) where
  fetch text args := ask (.fetch text args)
  script text := do let _ ← ask (.script text)
  close := pure ()

/-- How this server is asked for its tables and its time. -/
def wording : Wording where
  backend := .postgres
  catalog := "information_schema.tables"
  nameColumn := "table_name"
  own := ["table_schema = current_schema()"]
  now := "now()"

def integer? : Argument → Option Int
  | .int4 i => some i
  | _ => none

/-- What is asked of the server. -/
def deed : Call → Deed
  | .script text => scripted text
  | .fetch text args => wording.asked text.toList (args.map integer?)

def told (k : Kept) : Deed → Answer SqlType
  | .findTable name => ⟨[("exists", .bool)], [[.bool (k.tables.contains name)]]⟩
  | .readVersion => ⟨[("version", .int4)], k.version.toList.map fun v => [.int v]⟩
  | _ => .empty

def site : Site where
  backend := .postgres
  Call := Call
  Reply := Reply
  State := Kept
  access _ := schemaAccess session
  answer := Kept.machine.answer deed told (.database "refused")
  Fails := Kept.machine.Fails deed
  rest k := k
  empty := {}
  kept k := k

variable {faults : Prop} {k : Kept}

theorem site_step (faults : Prop) :
    site.step faults = Kept.machine.step deed told (PoolError.database "refused") faults := rfl

-- A text is computed with by its characters, and a long one is put together from its parts.
set_option maxRecDepth 2000 in
theorem deed_table : deed (.fetch tableQuery []) = .findTable versionTableName := by
  change wording.asked tableQuery.toList [] = _
  unfold tableQuery
  rw [String.toList_append, String.toList_append]
  rfl

theorem deed_version : deed (.fetch versionQuery []) = .readVersion := by rfl

set_option maxRecDepth 2000 in
theorem deed_record : deed (.fetch recordText [.int4 currentVersion]) =
    .record currentVersion true := by
  change wording.asked recordText.toList [some currentVersion] = _
  unfold recordText
  rw [String.toList_append, String.toList_append]
  rfl

theorem deed_script {text : String} (hmade : Making.ofScript? text = some (makings .postgres)) :
    deed (.script text) = .make (makings .postgres) := scripted_of_made hmade

theorem hasVersions_secured (k : Kept) : Secures (site.step faults) (· = k)
    (fun there _ => there = k.hasVersions) (fun _ _ => faults)
    (schemaAccess session).hasVersions k := by
  refine ((Machine.secures_look deed_table rfl fun _ => Kept.Partly.findTable).bind ?_).adapt
  rintro a t rfl rfl
  exact .ok rfl rfl

theorem version_secured (hversions : k.hasVersions = true) : Secures (site.step faults) (· = k)
    (fun v _ => v = k.version) (fun _ _ => faults) (schemaAccess session).version k := by
  refine ((Machine.secures_look deed_version (if_pos hversions)
    fun _ => Kept.Partly.readVersion).bind ?_).adapt
  rintro a t rfl rfl
  cases hversion : t.version with
  | none =>
      simp only [told, hversion]
      exact .ok rfl rfl
  | some v =>
      simp only [told, hversion]
      exact .ok rfl rfl

theorem script_secured {text : String} (hmade : Making.ofScript? text = some (makings .postgres))
    (hversion : k.version = none) :
    Secures (site.step faults) (fun t => t.version = none ∨ t.Complete .postgres)
      (fun _ t => t.version = none ∧ t.Furnished .postgres) (fun _ _ => faults)
      (session.script text) k := by
  obtain ⟨k₁, hdoes, hversion₁, hfurnished⟩ := k.exists_furnished .postgres
  have hdeed := deed_script hmade
  rw [← hdeed] at hdoes
  have hasked : Secures (site.step faults) (fun t => t.version = none ∨ t.Complete .postgres)
      (fun _ t => t.version = none ∧ t.Furnished .postgres) (fun _ _ => faults)
      (ask (.script text)) k := by
    refine Machine.secures_ask (.inl hversion) hdoes ?_ fun e t hfaults hpartly => ?_
    · exact ⟨.inl (hversion₁.trans hversion), hversion₁.trans hversion, hfurnished⟩
    · rw [hdeed] at hpartly
      exact ⟨.inl (hpartly.grows.version.trans hversion), hfaults⟩
  exact hasked.bind fun _ t ht hmade => .ok ht hmade

theorem record_secured (hversion : k.version = none) (hfurnished : k.Furnished .postgres) :
    Secures (site.step faults) (fun t => t.version = none ∨ t.Complete .postgres)
      (fun _ t => t.Complete .postgres) (fun _ _ => faults)
      (ask (.fetch recordText [.int4 currentVersion])) k := by
  have hdoes : Kept.machine.does k (.record currentVersion true) = _ :=
    Kept.does_record hfurnished.hasVersions hversion currentVersion true
  have hcomplete := hfurnished.complete
  rw [← deed_record] at hdoes
  refine Machine.secures_ask (.inl hversion) hdoes ⟨.inr hcomplete, hcomplete⟩
    fun e t hfaults hpartly => ⟨?_, hfaults⟩
  rw [deed_record] at hpartly
  obtain rfl | rfl := hpartly.record
  · exact .inl hversion
  · exact .inr hcomplete

theorem install_secured (hversion : k.version = none) :
    Secures (site.step faults) (fun t => t.version = none ∨ t.Complete .postgres)
      (fun _ t => t.Complete .postgres) (fun _ _ => faults) (schemaAccess session).install k := by
  obtain ⟨hstatements, hmade⟩ := statements_script (b := .postgres) (by decide)
  unfold schemaAccess
  rw [hstatements]
  refine (Secures.once (script_secured hmade hversion).adapt).bind ?_
  rintro - t - ⟨hversion, hfurnished⟩
  exact (record_secured hversion hfurnished).adapt.bind fun _ u hu hcomplete => .ok hu hcomplete

theorem site_lawful : site.Lawful where
  backend_access _ := rfl
  rest_settled _ := rfl
  empty_blank := ⟨rfl, rfl, nofun⟩
  empty_kept := rfl
  hasVersions _ _ k _ := hasVersions_secured k
  version _ _ _ _ hversions :=
    (version_secured hversions).mono_ok fun _ _ _ hv => .inl hv
  install _ _ _ hk :=
    (install_secured hk.version).mono
      (fun _ ht => ht.imp (fun hversion => ⟨rfl, hversion, nofun⟩) fun h => ⟨rfl, h⟩)
      (fun _ _ _ h => ⟨rfl, h⟩) fun _ _ _ h => ⟨h, nofun⟩

end Postgres

/-! ## The column store of a server -/

namespace Clickhouse

def servers : Servers (Dialogue Request Reply) where
  send := ask

/-- How this server is asked for its tables and its time. -/
def wording : Wording where
  backend := .clickhouse
  catalog := "system.tables"
  nameColumn := "name"
  own := ["database = currentDatabase()"]
  now := "now64(6)"

/-- What is asked of the server by a text that has its arguments in their places. -/
def asked (text : String) : Deed := wording.asked text.toList []

def told (k : Kept) : Deed → Body
  | .findTable name =>
      .typed ⟨[("there", .uint8)], [[.int (if k.tables.contains name then 1 else 0)]]⟩
  | .readVersion => .typed ⟨[("version", .int32)], k.version.toList.map fun v => [.int v]⟩
  | _ => .text ""

def site (settings : Config.ClickhouseSettings) : Site where
  backend := .clickhouse
  Call := Request
  Reply := Reply
  State := Kept
  access _ := schemaAccess servers settings
  answer k q :=
    match k.does (asked q.text) with
    | some k' => (.ok ⟨200, told k (asked q.text)⟩, k')
    | none => (.ok ⟨500, .text "refused"⟩, k)
  Fails k q reply k' := (∃ e, bodyIn reply = .error e) ∧ k.Partly (asked q.text) k'
  rest k := k
  empty := {}
  kept k := k

theorem inert_tableQuery : inert tableQuery = true := by decide

theorem inert_versionQuery : inert mergedVersionQuery = true := by decide

theorem asked_table : asked tableQuery = .findTable versionTableName := by
  unfold asked tableQuery
  rw [String.toList_append]
  rfl

theorem asked_version : asked mergedVersionQuery = .readVersion := by rfl

/-! ### Texts with their arguments -/

/-- A text is left as it is up to its first question mark. -/
theorem fill_append {cs : List Char} (h : '?' ∉ cs) (rest : List Char) (args : List Argument) :
    fill (cs ++ rest) args = (fill rest args).map (cs ++ ·) := by
  induction cs with
  | nil => cases hfill : fill rest args <;> simp [hfill, Except.map]
  | cons c cs ih =>
      rw [List.mem_cons, not_or] at h
      have hc : c ≠ '?' := Ne.symm h.1
      rw [List.cons_append, fill, ih h.2]
      · cases fill rest args <;> rfl
      · exact fun _ hmark _ => hc hmark
      · exact fun _ hmark => hc hmark
      · exact fun _ _ _ hmark => hc hmark

theorem fill_mark {rest : List Char} (h : rest.head? ≠ some '?') (a : Argument)
    (args : List Argument) :
    fill ('?' :: rest) (a :: args) = (fill rest args).map (a.literal ++ ·) := by
  rw [fill]
  rintro rest rfl
  exact h rfl

theorem fill_inert {text : String} (h : inert text = true) :
    fill text.toList [] = .ok text.toList := by
  have hfill := fill_append (not_mem_of_inert h).2 [] []
  rw [List.append_nil] at hfill
  rw [hfill, fill, Except.map, List.append_nil]

/-- What puts down the current version, with its arguments in their places. -/
def recordFilled : List Char :=
  "INSERT INTO schema_version (id, version, applied_at) VALUES (1, 1, now64(6))".toList

theorem fill_record : fill recordText.toList [.int 1, .int currentVersion] = .ok recordFilled := by
  have htext : recordText = "INSERT INTO schema_version (id, version, applied_at) VALUES (" ++
      ("?" ++ (", " ++ ("?" ++ ", now64(6))"))) := rfl
  have hparts : recordText.toList =
      "INSERT INTO schema_version (id, version, applied_at) VALUES (".toList ++
        ('?' :: (", ".toList ++ ('?' :: ", now64(6))".toList))) := by
    rw [htext, String.toList_append, String.toList_append, String.toList_append,
      String.toList_append]
    rfl
  have hhead : '?' ∉ "INSERT INTO schema_version (id, version, applied_at) VALUES (".toList := by
    decide
  have hcomma : '?' ∉ ", ".toList := by decide
  have hlast : fill ", now64(6))".toList [] = .ok ", now64(6))".toList := rfl
  rw [hparts, fill_append hhead, fill_mark (by simp), fill_append hcomma, fill_mark (by simp),
    hlast]
  rfl

theorem asked_record : asked (String.ofList recordFilled) = .record currentVersion true := by
  rw [asked, String.toList_ofList]
  rfl

/-! ### Requests -/

section

variable {settings : Config.ClickhouseSettings} {faults : Prop} {k k₁ : Kept}

theorem request_text {url : Text.Url} (hurl : Text.Url.parse settings.url = .ok url)
    (format : Option Format) {text : String} {args : List Argument} {filled : List Char}
    (hfilled : fill text.toList args = .ok filled) :
    ∃ q, request settings format text args = .ok q ∧ q.text = String.ofList filled := by
  unfold request
  rw [hfilled, hurl]
  exact ⟨_, rfl, rfl⟩

theorem bodyIn_told (k : Kept) (d : Deed) : bodyIn (.ok ⟨200, told k d⟩) = .ok (told k d) := by
  cases d <;> rfl

theorem secures_send {format : Option Format} {text : String} {args : List Argument}
    {meanwhile : Kept → Prop} {onOk : Body → Kept → Prop} {onError : HttpError → Kept → Prop}
    {q : Request} (hq : request settings format text args = .ok q)
    (hdoes : k.does (asked q.text) = some k₁) (hk : meanwhile k)
    (hok : meanwhile k₁ ∧ onOk (told k (asked q.text)) k₁)
    (herror : ∀ e t, faults → k.Partly (asked q.text) t → meanwhile t ∧ onError e t) :
    Secures ((site settings).step faults) meanwhile onOk onError
      (send servers settings format text args) k := by
  have hasked : Secures ((site settings).step faults) meanwhile
      (fun response t => (∀ body, response.accepted = .ok body → onOk body t) ∧
        ∀ e, response.accepted = .error e → onError e t) onError (ask q) k := by
    refine Secures.ask hk fun reply t hstep => ?_
    obtain h | ⟨hfaults, ⟨e, he⟩, hpartly⟩ := hstep
    · simp only [site, hdoes] at h
      obtain ⟨rfl, rfl⟩ := Prod.mk.inj h
      have hbody := bodyIn_told k (asked q.text)
      refine ⟨hok.1, fun body h => ?_, fun e h => ?_⟩
      · cases hbody.symm.trans h
        exact hok.2
      · cases hbody.symm.trans h
    · refine ⟨(herror e t hfaults hpartly).1, ?_⟩
      cases reply with
      | error e' => exact (herror e' t hfaults hpartly).2
      | ok response =>
          refine ⟨fun body h => ?_, fun e h => (herror e t hfaults hpartly).2⟩
          cases he.symm.trans h
  unfold send
  rw [hq]
  exact hasked.bind fun response t ht h => .lift response.accepted ht h.1 h.2

theorem request_inert {url : Text.Url} (hurl : Text.Url.parse settings.url = .ok url)
    (format : Option Format) {text : String} (h : inert text = true) :
    ∃ q, request settings format text [] = .ok q ∧ q.text = text := by
  obtain ⟨q, hq, htext⟩ := request_text hurl format (fill_inert h)
  exact ⟨q, hq, htext.trans String.ofList_toList⟩

/-- What only looks leaves everything as it is. -/
theorem look_secured {url : Text.Url} (hurl : Text.Url.parse settings.url = .ok url)
    {text : String} {d : Deed} (h : inert text = true) (hd : asked text = d)
    (hdoes : k.does d = some k) (hlook : ∀ t, k.Partly d t → t = k) :
    Secures ((site settings).step faults) (· = k) (fun body _ => body = told k d)
      (fun _ _ => faults) (send servers settings (some .typed) text []) k := by
  obtain ⟨q, hq, rfl⟩ := request_inert hurl (some .typed) h
  subst hd
  exact secures_send hq hdoes rfl ⟨rfl, rfl⟩ fun _ t hfaults hpartly => ⟨hlook t hpartly, hfaults⟩

/-- What has been made where some of the statements are left. -/
def Made (left : List String) (k : Kept) : Prop :=
  k.version = none ∧ ∃ done, done ++ left = statements .clickhouse ∧
    ∀ text ∈ done, ∀ made, Making.ofStatement? text.toList = some made → k.Has made

theorem Made.all (h : Made [] k) : k.version = none ∧ k.Furnished .clickhouse := by
  obtain ⟨hversion, done, hdone, hmade⟩ := h
  have hthere : ∀ m ∈ makings .clickhouse, k.Has m := by
    intro m hm
    have hread : some m ∈ done.map fun text => Making.ofStatement? text.toList := by
      rw [← List.append_nil done, hdone, statements_clickhouse]
      exact List.mem_map_of_mem hm
    obtain ⟨text, htext, hread⟩ := List.mem_map.1 hread
    exact hmade text htext m hread
  exact ⟨hversion, .of_has hthere⟩

/-- One more of the statements was carried out. -/
theorem Made.next {text : String} {left : List String} {t : Kept} (h : Made (text :: left) k)
    (hgrows : k.Grows t)
    (hthere : ∀ made, Making.ofStatement? text.toList = some made → t.Has made) :
    Made left t := by
  obtain ⟨hversion, done, hdone, hmade⟩ := h
  refine ⟨hgrows.version.trans hversion, done ++ [text],
    by rw [List.append_assoc]; exact hdone, ?_⟩
  rintro text' htext' made hread
  obtain htext' | htext' := List.mem_append.1 htext'
  · exact hgrows.has (hmade text' htext' made hread)
  · obtain rfl := List.mem_singleton.1 htext'
    exact hthere made hread

section

variable {url : Text.Url} (hurl : Text.Url.parse settings.url = .ok url)

include hurl

theorem hasVersions_secured (k : Kept) : Secures ((site settings).step faults) (· = k)
    (fun there _ => there = k.hasVersions) (fun _ _ => faults)
    (schemaAccess servers settings).hasVersions k := by
  refine ((look_secured hurl inert_tableQuery asked_table rfl
    fun _ => Kept.Partly.findTable).bind ?_).adapt
  rintro body t rfl rfl
  simp only [told, Kept.hasVersions]
  cases t.tables.contains versionTableName <;> exact .ok rfl rfl

theorem version_secured (hversions : k.hasVersions = true) :
    Secures ((site settings).step faults) (· = k) (fun v _ => v = k.version) (fun _ _ => faults)
      (schemaAccess servers settings).version k := by
  refine ((look_secured hurl inert_versionQuery asked_version
    (if_pos hversions) fun _ => Kept.Partly.readVersion).bind ?_).adapt
  rintro body t rfl rfl
  cases hversion : t.version with
  | none =>
      simp only [told, hversion]
      exact .ok rfl rfl
  | some v =>
      simp only [told, hversion]
      exact .ok rfl rfl

/-- One more of the statements was carried out, or it failed. -/
theorem statement_secured {text : String} (htext : text ∈ statements .clickhouse)
    (hversion : k.version = none) :
    Secures ((site settings).step faults)
      (fun t => t.version = none ∨ t.Complete .clickhouse)
      (fun _ t => k.Grows t ∧
        ∀ made, Making.ofStatement? text.toList = some made → t.Has made)
      (fun _ _ => faults) (execute servers settings text []) k := by
  obtain ⟨name, hmade⟩ := table_of_statement htext
  obtain ⟨q, hq, rfl⟩ := request_inert hurl none (inert_statement htext)
  have hmissing : ∀ m ∈ [(⟨name, none, true⟩ : Making)], m.unlessThere = true :=
    List.forall_mem_singleton.2 rfl
  have hfounded : Making.founded [] [⟨name, none, true⟩] = true := rfl
  obtain ⟨k₁, hdoes⟩ := Kept.exists_makeAll hmissing hfounded (List.nil_subset k.tables)
  obtain ⟨hgrows, hthere⟩ := Kept.makeAll_some hdoes
  have hasked : asked q.text = .make [⟨name, none, true⟩] := Wording.asked_statement hmade []
  have hthere : ∀ made, Making.ofStatement? q.text.toList = some made → k₁.Has made := by
    intro made h
    obtain rfl := Option.some.inj (hmade.symm.trans h)
    exact hthere _ (List.mem_singleton_self _)
  have hsent : Secures ((site settings).step faults)
      (fun t => t.version = none ∨ t.Complete .clickhouse)
      (fun _ t => k.Grows t ∧
        ∀ made, Making.ofStatement? q.text.toList = some made → t.Has made)
      (fun _ _ => faults) (send servers settings none q.text []) k := by
    refine secures_send hq (by rw [hasked]; exact hdoes) (.inl hversion)
      ⟨.inl (hgrows.version.trans hversion), hgrows, hthere⟩ fun e t hfaults hpartly => ?_
    rw [hasked] at hpartly
    exact ⟨.inl (hpartly.grows.version.trans hversion), hfaults⟩
  exact hsent.bind fun _ t ht hdone => .ok ht hdone

theorem record_secured (hversion : k.version = none) (hfurnished : k.Furnished .clickhouse) :
    Secures ((site settings).step faults)
      (fun t => t.version = none ∨ t.Complete .clickhouse) (fun _ t => t.Complete .clickhouse)
      (fun _ _ => faults)
      (execute servers settings recordText [.int 1, .int currentVersion]) k := by
  obtain ⟨q, hq, htext⟩ := request_text hurl none fill_record
  have hasked : asked q.text = .record currentVersion true := htext ▸ asked_record
  have hdoes := Kept.does_record hfurnished.hasVersions hversion currentVersion true
  rw [← hasked] at hdoes
  have hcomplete := hfurnished.complete
  have hsent : Secures ((site settings).step faults)
      (fun t => t.version = none ∨ t.Complete .clickhouse) (fun _ t => t.Complete .clickhouse)
      (fun _ _ => faults)
      (send servers settings none recordText [.int 1, .int currentVersion]) k := by
    refine secures_send hq hdoes (.inl hversion) ⟨.inr hcomplete, hcomplete⟩
      fun e t hfaults hpartly => ⟨?_, hfaults⟩
    rw [hasked] at hpartly
    obtain rfl | rfl := hpartly.record
    · exact .inl hversion
    · exact .inr hcomplete
  exact hsent.bind fun _ t ht hdone => .ok ht hdone

theorem install_secured (hversion : k.version = none) :
    Secures ((site settings).step faults)
      (fun t => t.version = none ∨ t.Complete .clickhouse) (fun _ t => t.Complete .clickhouse)
      (fun _ _ => faults) (schemaAccess servers settings).install k := by
  unfold schemaAccess
  refine (Secures.each Made ?_ (.inl hversion) ⟨hversion, [], rfl, nofun⟩).bind ?_
  · intro text left t _ hmade
    have htext : text ∈ statements .clickhouse := by
      obtain ⟨-, done, hdone, -⟩ := hmade
      exact hdone ▸ List.mem_append_right done List.mem_cons_self
    refine ((statement_secured hurl htext hmade.1).mono_ok fun _ u _ hu => ?_).adapt
    exact hmade.next hu.1 hu.2
  · intro _ t _ hmade
    obtain ⟨hversion, hfurnished⟩ := hmade.all
    exact (record_secured hurl hversion hfurnished).adapt

theorem site_lawful : (site settings).Lawful where
  backend_access _ := rfl
  rest_settled _ := rfl
  empty_blank := ⟨rfl, rfl, nofun⟩
  empty_kept := rfl
  hasVersions _ _ k _ := hasVersions_secured hurl k
  version _ _ _ _ hversions :=
    (version_secured hurl hversions).mono_ok fun _ _ _ hv => .inl hv
  install _ _ _ hk :=
    (install_secured hurl hk.version).mono
      (fun _ ht => ht.imp (fun hversion => ⟨rfl, hversion, nofun⟩) fun h => ⟨rfl, h⟩)
      (fun _ _ _ h => ⟨rfl, h⟩) fun _ _ _ h => ⟨h, nofun⟩

end

end

end Clickhouse

end RequestLog.Store
