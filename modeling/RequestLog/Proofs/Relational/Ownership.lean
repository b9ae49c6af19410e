import RequestLog.Proofs.Relational.Join
import RequestLog.Field.Registry
import RequestLog.Schema.Tables

/-!
# What belongs to a tenant, and what its rows reach

A request and a property name the organization that they belong to, and a response
belongs with the request that it references. So the records of a tenant's requests come
from the tenant's own rows (`requests_part`). A property is different: it names an
organization beside its request, and nothing in the schema makes the two agree. The
records of a tenant's properties come from the rows that these reach (`properties_part`):
the requests they refer to and the responses to them, whosever they are.

Only where every property of the tenant refers to one of the tenant's own requests
(`RefersToOwn`) is all that the tenant reaches the tenant's own (`SamePart.sameReach`).
-/

namespace RequestLog.Relational

open Sql Schema

/-- The tables of a row store. -/
def rowTables : List StoredTable := Schema.tables (Schema.schema .sqlite)

theorem rowTables_nodup : (rowTables.map (·.name)).Nodup := by decide

/-! ## Texts that agree -/

namespace Value

variable {v w : Value}

theorem agrees_text (a b : String) : Value.agrees (.text a) (.text b) = decide (a = b) :=
  compareTexts_beq_eq a b

theorem Textual.agrees_iff (hv : v.Textual) (hw : w.Textual) :
    v.agrees w = true ↔ ∃ s, v = .text s ∧ w = .text s := by
  rcases hv with rfl | ⟨a, rfl⟩
  · exact ⟨fun h => absurd h Bool.false_ne_true, fun ⟨_, h, _⟩ => by cases h⟩
  · rcases hw with rfl | ⟨b, rfl⟩
    · exact ⟨fun h => absurd h Bool.false_ne_true, fun ⟨_, _, h⟩ => by cases h⟩
    · rw [agrees_text, decide_eq_true_eq]
      constructor
      · rintro rfl
        exact ⟨a, rfl, rfl⟩
      · rintro ⟨s, ha, hb⟩
        cases ha
        cases hb
        rfl

theorem Textual.agrees_comm (hv : v.Textual) (hw : w.Textual) :
    v.agrees w = w.agrees v := by
  rw [Bool.eq_iff_iff, hv.agrees_iff hw, hw.agrees_iff hv]
  exact exists_congr fun _ => and_comm

end Value

/-! ## Parts of a database -/

/-- Whether a row names an organization as the one that it belongs to. -/
def Table.names (t : Table) (tenant : String) (row : List Value) : Bool :=
  match t.value row "organization_id" with
  | .text s => s == tenant
  | _ => false

theorem Table.names_iff {t : Table} {tenant : String} {row : List Value} :
    t.names tenant row = true ↔ t.value row "organization_id" = .text tenant := by
  rw [names]
  split
  · next s hs => rw [hs, beq_iff_eq, Value.text.injEq]
  · next hother =>
      exact ⟨fun h => absurd h Bool.false_ne_true, fun h => absurd h (hother tenant)⟩

namespace Database

variable {db db' : Database} {tenant : String} {requests : Table → List Value → Bool}
  {t : Table} {row : List Value}

/-- Whether a value is the id of one of some requests. -/
def hasRequest (db : Database) (requests : Table → List Value → Bool) (id : Value) : Bool :=
  (db.table? "request").any fun t =>
    t.rows.any fun row => requests t row && (t.value row "id").agrees id

/-- Whether a tenant's property refers to a value. -/
def refersTo (db : Database) (tenant : String) (id : Value) : Bool :=
  (db.table? "properties").any fun t =>
    t.rows.any fun row => t.names tenant row && (t.value row "request_id").agrees id

/-- Some requests with the responses to them, and what else names a tenant. -/
def around (db : Database) (tenant : String) (requests : Table → List Value → Bool)
    (t : Table) (row : List Value) : Bool :=
  if t.definition.name == "response" then db.hasRequest requests (t.value row "request_id")
  else if t.definition.name == "request" then requests t row
  else t.names tenant row

/-- Whether a row belongs to a tenant; a response belongs with its request. -/
def owns (db : Database) (tenant : String) : Table → List Value → Bool :=
  db.around tenant fun t row => t.names tenant row

/-- Whether a row belongs to a tenant, or with a request that a tenant's property
refers to. -/
def reaches (db : Database) (tenant : String) : Table → List Value → Bool :=
  db.around tenant fun t row => t.names tenant row || db.refersTo tenant (t.value row "id")

def part (db : Database) (keep : Table → List Value → Bool) : Database :=
  { db with tables := db.tables.map fun t => t.keepRows (keep t) }

/-- The same rows of a tenant, whatever the rows of others are. -/
def SamePart (tenant : String) (db db' : Database) : Prop :=
  (db.part (db.owns tenant)).Alike (db'.part (db'.owns tenant))

/-- The same rows that a tenant reaches, whatever the other rows are. -/
def SameReach (tenant : String) (db db' : Database) : Prop :=
  (db.part (db.reaches tenant)).Alike (db'.part (db'.reaches tenant))

/-- Whatever is kept of a relation's records is kept of those of a part. -/
def KeepsPart (db : Database) (keep : Table → List Value → Bool) (rel : Relation)
    (kept : Record → Bool) : Prop :=
  ∃ rs rs' absent, db.records rel = .ok (rs, absent) ∧
    (db.part keep).records rel = .ok (rs', absent) ∧ rs.filter kept = rs'.filter kept

/-- Every property of a tenant refers to one of the tenant's own requests. -/
def RefersToOwn (db : Database) (tenant : String) : Prop :=
  ∀ t, db.table? "properties" = some t → ∀ row ∈ t.rows, t.names tenant row = true →
    db.hasRequest (fun q => q.names tenant) (t.value row "request_id") = true

theorem around_response (h : t.definition.name = "response") :
    db.around tenant requests t row = db.hasRequest requests (t.value row "request_id") := by
  rw [around, if_pos (beq_iff_eq.2 h)]

theorem around_request (h : t.definition.name = "request") :
    db.around tenant requests t row = requests t row := by
  have hresponse : t.definition.name ≠ "response" := by rw [h]; decide
  rw [around, if_neg (by rwa [beq_iff_eq]), if_pos (beq_iff_eq.2 h)]

theorem around_other (hresponse : t.definition.name ≠ "response")
    (hrequest : t.definition.name ≠ "request") :
    db.around tenant requests t row = t.names tenant row := by
  rw [around, if_neg (by rwa [beq_iff_eq]), if_neg (by rwa [beq_iff_eq])]

theorem owns_eq_names (h : t.definition.name ≠ "response") :
    db.owns tenant t row = t.names tenant row := by
  by_cases hrequest : t.definition.name = "request"
  · exact around_request hrequest
  · exact around_other h hrequest

theorem table?_part_eq (keep : Table → List Value → Bool) (name : String) :
    (db.part keep).table? name = (db.table? name).map fun t => t.keepRows (keep t) := by
  rw [table?, part, List.find?_map]
  rfl

theorem table?_part (keep : Table → List Value → Bool) {name : String}
    (h : db.table? name = some t) :
    (db.part keep).table? name = some (t.keepRows (keep t)) := by
  rw [table?_part_eq, h]
  rfl

end Database

/-- Rows that lead to nothing that is kept may be left out beforehand. -/
theorem filter_flatMap_filter {α β : Type} {xs : List α} {keep : α → Bool}
    {f g : α → List β} {kept : β → Bool} (hkeep : ∀ x ∈ xs, keep x = true → f x = g x)
    (hdrop : ∀ x ∈ xs, keep x = false → ∀ y ∈ f x, kept y = false) :
    (xs.flatMap f).filter kept = ((xs.filter keep).flatMap g).filter kept := by
  induction xs with
  | nil => rfl
  | cons x rest ih =>
      obtain ⟨hx, hrest⟩ := List.forall_mem_cons.1 hkeep
      obtain ⟨hx', hrest'⟩ := List.forall_mem_cons.1 hdrop
      rw [List.flatMap_cons, List.filter_append, ih hrest hrest', List.filter_cons]
      cases hown : keep x with
      | true => rw [if_pos rfl, List.flatMap_cons, List.filter_append, hx hown]
      | false =>
          have hnone : (f x).filter kept = [] :=
            List.filter_eq_nil_iff.2 fun y hy => by rw [hx' hown y hy]; exact Bool.false_ne_true
          rw [if_neg Bool.false_ne_true, hnone, List.nil_append]

/-! ## Records of a part -/

namespace Database

variable {db : Database} {tenant : String} {requests : Table → List Value → Bool}

theorem hasRequest_iff {t : Table} (ht : db.table? "request" = some t) {id : Value} :
    db.hasRequest requests id = true ↔
      ∃ row ∈ t.rows, requests t row = true ∧ (t.value row "id").agrees id = true := by
  rw [hasRequest, ht, Option.any_some, List.any_eq_true]
  simp only [Bool.and_eq_true]

theorem refersTo_iff {t : Table} (ht : db.table? "properties" = some t) {id : Value} :
    db.refersTo tenant id = true ↔
      ∃ row ∈ t.rows, t.names tenant row = true ∧
        (t.value row "request_id").agrees id = true := by
  rw [refersTo, ht, Option.any_some, List.any_eq_true]
  simp only [Bool.and_eq_true]

/-- A record with one of some requests has its responses among the rows around them. -/
theorem joined_responses {q p : Table} {row : List Value} {r : Record}
    (hq : db.Has requestTable q) (hp : db.Has responseTable p) (hrow : row ∈ q.rows)
    (hchosen : requests q row = true)
    (hr : r.lookup ⟨"request", "id"⟩ = some (q.value row "id")) (hapart : Apart "response" r) :
    joined Registry.joinResponse (p.keepRows (db.around tenant requests p)) r =
      joined Registry.joinResponse p r := by
  have hfits : Fits Registry.joinResponse p r :=
    hp.fits rfl rfl (Option.isSome_iff_exists.2 ⟨_, hr⟩) hapart
  refine joined_keepRows hp.sound.width hfits fun row' hrow' hagrees => ?_
  have hid : (q.value row "id").Textual := hq.textual hrow (c := "id") rfl rfl
  have hreference : (p.value row' "request_id").Textual :=
    hp.textual hrow' (c := "request_id") rfl rfl
  have hvalue : valueIn r ⟨"request", "id"⟩ = q.value row "id" := valueIn_of_lookup hr
  change (p.value row' "request_id").agrees (valueIn r ⟨"request", "id"⟩) = true at hagrees
  rw [hvalue, hreference.agrees_comm hid] at hagrees
  rw [around_response hp.name]
  exact (hasRequest_iff hq.found).2 ⟨row, hrow, hchosen, hagrees⟩

/-- A condition on the tenant that a table names keeps nothing beside other rows. -/
theorem not_kept {d : StoredTable} {t : Table} {row : List Value} {kept : Record → Bool}
    (ht : db.Has d t) (hcolumn : (d.column? "organization_id").isSome)
    (hkept : ∀ r, kept r = true → valueIn r ⟨d.name, "organization_id"⟩ = .text tenant)
    (hrow : row ∈ t.rows) (hother : t.names tenant row = false) (s : Record) :
    kept (t.record row ++ s) = false := by
  have hlookup := ht.lookup_record hrow hcolumn
  rw [Bool.eq_false_iff]
  intro hk
  have hvalue := hkept _ hk
  rw [valueIn_append_left (Option.isSome_iff_exists.2 ⟨_, hlookup⟩),
    valueIn_of_lookup hlookup, ← Table.names_iff, hother] at hvalue
  cases hvalue

/-- What a condition on the tenant keeps of the requests, with their responses. -/
theorem requests_part (h : db.Admitted rowTables) {kept : Record → Bool}
    (hkept : ∀ r, kept r = true →
      valueIn r ⟨"request", "organization_id"⟩ = .text tenant) :
    db.KeepsPart (db.owns tenant) (Registry.rowSource .requestResponseLog).relation kept := by
  obtain ⟨q, hq⟩ := h.has (d := requestTable) rfl
  obtain ⟨p, hp⟩ := h.has (d := responseTable) rfl
  have hpart := records_join Registry.joinResponse (table?_part (db.owns tenant) hq.found)
    (table?_part _ hp.found)
  refine ⟨_, _, _, records_join _ hq.found hp.found, hpart, ?_⟩
  refine filter_flatMap_filter (fun row hrow hown => ?_) fun row hrow hown both hboth => ?_
  · rw [owns, around_request hq.name] at hown
    exact (joined_responses hq hp hrow hown (hq.lookup_record hrow rfl)
      (hq.apart (by decide))).symm
  · rw [owns, around_request hq.name] at hown
    obtain ⟨s, rfl⟩ := append_of_mem_joined hboth
    exact not_kept hq rfl hkept hrow hown s

section

variable {q p t : Table} {row : List Value}

theorem refersTo_of_agrees (hq : db.Has requestTable q) (ht : db.Has propertiesTable t)
    (hrow : row ∈ t.rows) (hnamed : t.names tenant row = true) {row' : List Value}
    (hrow' : row' ∈ q.rows)
    (hagrees : (q.value row' "id").agrees (t.value row "request_id") = true) :
    db.refersTo tenant (q.value row' "id") = true := by
  have hid : (q.value row' "id").Textual := hq.textual hrow' (c := "id") rfl rfl
  have hreference : (t.value row "request_id").Textual :=
    ht.textual hrow (c := "request_id") rfl rfl
  rw [hid.agrees_comm hreference] at hagrees
  exact (refersTo_iff ht.found).2 ⟨row, hrow, hnamed, hagrees⟩

/-- The records with a property of the tenant are made of rows that the tenant reaches. -/
theorem property_records (hq : db.Has requestTable q) (hp : db.Has responseTable p)
    (ht : db.Has propertiesTable t) (hrow : row ∈ t.rows)
    (hnamed : t.names tenant row = true) :
    (joined Registry.joinRequest (q.keepRows (db.reaches tenant q)) (t.record row)).flatMap
        (joined Registry.joinResponse (p.keepRows (db.reaches tenant p))) =
      (joined Registry.joinRequest q (t.record row)).flatMap
        (joined Registry.joinResponse p) := by
  have hreference : (t.record row).lookup ⟨"properties", "request_id"⟩ =
      some (t.value row "request_id") := ht.lookup_record hrow rfl
  have hfits : Fits Registry.joinRequest q (t.record row) :=
    hq.fits rfl rfl (Option.isSome_iff_exists.2 ⟨_, hreference⟩) (ht.apart (by decide))
  have hreached : ∀ row' ∈ q.rows, (q.value row' "id").agrees
      (valueIn (t.record row) ⟨"properties", "request_id"⟩) = true →
      (q.names tenant row' || db.refersTo tenant (q.value row' "id")) = true := by
    intro row' hrow' hagrees
    rw [valueIn_of_lookup hreference] at hagrees
    rw [refersTo_of_agrees hq ht hrow hnamed hrow' hagrees, Bool.or_true]
  have hrequests : joined Registry.joinRequest (q.keepRows (db.reaches tenant q))
      (t.record row) = joined Registry.joinRequest q (t.record row) := by
    refine joined_keepRows hq.sound.width hfits fun row' hrow' hagrees => ?_
    rw [reaches, around_request hq.name]
    exact hreached row' hrow' hagrees
  rw [hrequests]
  refine List.flatMap_congr fun both hboth => ?_
  obtain ⟨row', hrow', hagrees, rfl⟩ := exists_of_mem_partners hq.sound.width hfits hboth
  have hid : (t.record row ++ q.record row').lookup ⟨"request", "id"⟩ =
      some (q.value row' "id") :=
    (lookup_append_right (ht.apart (by decide))).trans (hq.lookup_record hrow' rfl)
  exact joined_responses hq hp hrow' (hreached row' hrow' hagrees) hid
    (.append (ht.apart (by decide)) (hq.apart (by decide)))

end

/-- What a condition on the tenant keeps of the properties, with their requests and
responses. -/
theorem properties_part (h : db.Admitted rowTables) {kept : Record → Bool}
    (hkept : ∀ r, kept r = true →
      valueIn r ⟨"properties", "organization_id"⟩ = .text tenant) :
    db.KeepsPart (db.reaches tenant) (Registry.rowSource .propertyWithResponse).relation
      kept := by
  obtain ⟨q, hq⟩ := h.has (d := requestTable) rfl
  obtain ⟨p, hp⟩ := h.has (d := responseTable) rfl
  obtain ⟨t, ht⟩ := h.has (d := propertiesTable) rfl
  have hpart := records_join_join Registry.joinRequest Registry.joinResponse
    (table?_part (db.reaches tenant) ht.found) (table?_part _ hq.found)
    (table?_part _ hp.found)
  refine ⟨_, _, _, records_join_join _ _ ht.found hq.found hp.found, hpart, ?_⟩
  have hreaches {row : List Value} : db.reaches tenant t row = t.names tenant row :=
    around_other (by rw [ht.name]; decide) (by rw [ht.name]; decide)
  refine filter_flatMap_filter (fun row hrow hown => ?_) fun row hrow hown both hboth => ?_
  · rw [hreaches] at hown
    exact (property_records hq hp ht hrow hown).symm
  · rw [hreaches] at hown
    obtain ⟨both', hboth', hboth⟩ := List.mem_flatMap.1 hboth
    obtain ⟨s, rfl⟩ := append_of_mem_joined hboth'
    obtain ⟨s', rfl⟩ := append_of_mem_joined hboth
    rw [List.append_assoc]
    exact not_kept ht rfl hkept hrow hown _

/-- Two states with the same part have the same records that are kept, if only records
of that part are. -/
theorem Alike.records_kept {db' : Database} {keep keep' : Table → List Value → Bool}
    (h : (db.part keep).Alike (db'.part keep')) {rel : Relation} {kept : Record → Bool}
    (hpart : db.KeepsPart keep rel kept) (hpart' : db'.KeepsPart keep' rel kept) :
    ∃ rs rs' absent, db.records rel = .ok (rs, absent) ∧ db'.records rel = .ok (rs', absent) ∧
      (rs.filter kept).Perm (rs'.filter kept) := by
  obtain ⟨rs, own, absent, hrs, hown, hkept⟩ := hpart
  obtain ⟨rs', own', absent', hrs', hown', hkept'⟩ := hpart'
  obtain ⟨own₁, hown₁, hperm⟩ := h.records hown
  cases hown'.symm.trans hown₁
  refine ⟨rs, rs', absent, hrs, hrs', ?_⟩
  rw [hkept, hkept']
  exact hperm.filter kept

end Database

/-! ## Properties of a tenant's own requests -/

theorem Table.value_congr {t t' : Table} (h : t.definition = t'.definition) :
    t.value = t'.value := by
  funext row column
  rw [value, value, columns, columns, h]

namespace Database

variable {db db' : Database} {tenant : String}

/-- What the tenant has in a table of one state, the tenant has in the other. -/
theorem SamePart.row {name : String} (h : SamePart tenant db db') {t : Table}
    (ht : db.table? name = some t) {row : List Value} (hrow : row ∈ t.rows)
    (hown : db.owns tenant t row = true) :
    ∃ t', db'.table? name = some t' ∧ t.definition = t'.definition ∧ row ∈ t'.rows ∧
      db'.owns tenant t' row = true := by
  obtain ⟨u, hu, halike⟩ := Alike.table? h (table?_part _ ht)
  rw [table?_part_eq] at hu
  obtain ⟨t', ht', rfl⟩ := Option.map_eq_some_iff.1 hu
  have hmem := halike.rows.subset (List.mem_filter.2 ⟨hrow, hown⟩)
  exact ⟨t', ht', halike.definition, List.mem_filter.1 hmem⟩

theorem SamePart.symm (h : SamePart tenant db db') : SamePart tenant db' db :=
  List.Forall₂.flip (List.Forall₂.imp (fun _ _ hu => ⟨hu.definition.symm, hu.rows.symm⟩) h)

theorem SamePart.hasRequest (h : SamePart tenant db db') {id : Value}
    (hid : db.hasRequest (fun q => q.names tenant) id = true) :
    db'.hasRequest (fun q => q.names tenant) id = true := by
  obtain ⟨t, ht, hany⟩ := (Option.any_eq_true _ _).1 hid
  obtain ⟨row, hrow, hown, hagrees⟩ := (hasRequest_iff ht).1 hid
  have hname : t.definition.name = "request" := name_of_table? ht
  obtain ⟨t', ht', hdef, hrow', hown'⟩ :=
    h.row ht hrow ((around_request hname).trans hown)
  rw [owns, around_request (hdef ▸ hname)] at hown'
  rw [Table.value_congr hdef] at hagrees
  exact (hasRequest_iff ht').2 ⟨row, hrow', hown', hagrees⟩

theorem SamePart.refersToOwn (h : SamePart tenant db db') (hrefs : db.RefersToOwn tenant) :
    db'.RefersToOwn tenant := by
  intro t' ht' row hrow hown
  have hname : t'.definition.name ≠ "response" := by rw [name_of_table? ht']; decide
  obtain ⟨t, ht, hdef, hrow', hown'⟩ := h.symm.row ht' hrow ((owns_eq_names hname).trans hown)
  rw [owns_eq_names (hdef ▸ hname)] at hown'
  rw [Table.value_congr hdef]
  exact h.hasRequest (hrefs t ht row hrow' hown')

/-- A request that a property of the tenant refers to is the tenant's. -/
theorem names_of_refersTo (h : db.Admitted rowTables) (hrefs : db.RefersToOwn tenant)
    {q : Table} (hq : db.Has requestTable q) {row : List Value} (hrow : row ∈ q.rows)
    (hrefers : db.refersTo tenant (q.value row "id") = true) : q.names tenant row = true := by
  obtain ⟨t, ht⟩ := h.has (d := propertiesTable) rfl
  obtain ⟨property, hproperty, hnamed, hrefers⟩ := (refersTo_iff ht.found).1 hrefers
  obtain ⟨own, hown, hnames, hagrees⟩ :=
    (hasRequest_iff hq.found).1 (hrefs t ht.found property hproperty hnamed)
  have hid {r : List Value} (hr : r ∈ q.rows) : (q.value r "id").Textual :=
    hq.textual hr (c := "id") rfl rfl
  have hreference : (t.value property "request_id").Textual :=
    ht.textual hproperty (c := "request_id") rfl rfl
  obtain ⟨s, hreference', hs⟩ := (hreference.agrees_iff (hid hrow)).1 hrefers
  obtain ⟨s', hs', hreference''⟩ := ((hid hown).agrees_iff hreference).1 hagrees
  cases hreference'.symm.trans hreference''
  have hkey {r other : List Value} (hr : q.value r "id" = .text s)
      (hother : q.value other "id" = .text s) : q.sameKey r other = true := by
    rw [Table.sameKey, hq.definition]
    change ((q.value r "id").agrees (q.value other "id") && true) = true
    rw [hr, hother, Value.agrees_text, decide_eq_true rfl]
    rfl
  rw [hq.sound.eq_of_sameKey hrow hown (hkey hs hs') (hkey hs' hs)]
  exact hnames

/-- Where the tenant's properties refer to own requests, all that is reached is owned. -/
theorem part_reaches (h : db.Admitted rowTables) (hrefs : db.RefersToOwn tenant) :
    db.part (db.reaches tenant) = db.part (db.owns tenant) := by
  obtain ⟨q, hq⟩ := h.has (d := requestTable) rfl
  have hchosen : ∀ row ∈ q.rows,
      (q.names tenant row || db.refersTo tenant (q.value row "id")) = q.names tenant row := by
    intro row hrow
    rw [Bool.or_eq_left_iff_imp]
    exact names_of_refersTo h hrefs hq hrow
  have hsame : ∀ t ∈ db.tables, ∀ row ∈ t.rows,
      db.reaches tenant t row = db.owns tenant t row := by
    intro t ht row hrow
    rw [reaches, owns]
    by_cases hresponse : t.definition.name = "response"
    · rw [around_response hresponse, around_response hresponse, Bool.eq_iff_iff,
        hasRequest_iff hq.found, hasRequest_iff hq.found]
      refine exists_congr fun row' => and_congr_right fun hrow' => ?_
      rw [hchosen row' hrow']
    · by_cases hrequest : t.definition.name = "request"
      · cases h.eq_of_name rowTables_nodup hq.found ht hrequest
        rw [around_request hrequest, around_request hrequest]
        exact hchosen row hrow
      · rw [around_other hresponse hrequest, around_other hresponse hrequest]
  rw [part, part]
  refine congrArg (Database.mk · db.indexes) (List.map_congr_left fun t ht => ?_)
  exact congrArg (Table.mk t.definition) (List.filter_congr (hsame t ht))

/-- The same part is the same reach, where the tenant's properties refer to own requests. -/
theorem SamePart.sameReach (h : SamePart tenant db db') (hdb : db.Admitted rowTables)
    (hdb' : db'.Admitted rowTables) (hrefs : db.RefersToOwn tenant) :
    SameReach tenant db db' := by
  rw [SameReach, part_reaches hdb hrefs, part_reaches hdb' (h.refersToOwn hrefs)]
  exact h

end Database

end RequestLog.Relational
