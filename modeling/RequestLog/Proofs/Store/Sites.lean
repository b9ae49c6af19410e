import RequestLog.Proofs.Store.Embedded
import RequestLog.Proofs.Store.Servers

/-!
# A store that could not be set up can be set up later

For each of the four backends, whatever history of attempts there was, with any statement of
any attempt failing and any attempt stopped anywhere: the next attempt in which nothing fails
ends well, and every table of the schema is there then, and the current version on record.
An attempt that failed leaves an embedded store as it was. Behind an attempt that ended well
no later one changes anything, not even one that fails.
-/

namespace RequestLog.Store

/-- A store that can be set up. One that is reached over HTTP needs an address. -/
inductive Place where
  | sqlite
  | postgres
  | duckdb
  | clickhouse (settings : Config.ClickhouseSettings) (url : Text.Url)
      (hurl : Text.Url.parse settings.url = .ok url)

namespace Place

def site : Place → Site
  | .sqlite => Sqlite.site
  | .postgres => Postgres.site
  | .duckdb => Duckdb.site
  | .clickhouse settings _ _ => Clickhouse.site settings

theorem site_lawful (p : Place) : p.site.Lawful := by
  cases p with
  | sqlite => exact Sqlite.site_lawful
  | postgres => exact Postgres.site_lawful
  | duckdb => exact Duckdb.site_lawful
  | clickhouse settings url hurl => exact Clickhouse.site_lawful hurl

/-- Whatever attempts a store has been through, the next one in which nothing fails sets it
up; one that fails leaves an embedded store as it was; and behind one that ended well every
further one changes nothing, and ends well when nothing fails. -/
theorem setup_repeatable (p : Place) {s : p.site.State} (h : p.site.Reached s) :
    (∀ now, (p.site.attempt now s).1 = .ok () ∧
      (p.site.kept (p.site.attempt now s).2).Complete p.site.backend) ∧
    (p.site.backend = .sqlite ∨ p.site.backend = .duckdb →
      ∀ e t, p.site.Attempted s (some (.error e)) t → t = s) ∧
    ∀ t, p.site.Attempted s (some (.ok ())) t →
      (p.site.kept t).Complete p.site.backend ∧
      (∀ result u, p.site.Attempted t result u → u = t) ∧
      ∀ now, p.site.attempt now t = (.ok (), t) := by
  have hlawful := p.site_lawful
  have hs := hlawful.reached h
  refine ⟨fun now => ?_, fun hembedded e t hattempted => ?_, fun t hattempted => ?_⟩
  · obtain ⟨hok, hready⟩ := hlawful.attempt_ready hs now
    exact ⟨hok, hready.complete⟩
  · obtain hblank | hready := hs
    · have hrepairs : repairs p.site.backend = false := by
        obtain hb | hb := hembedded <;> rw [hb] <;> rfl
      exact (hlawful.attempted_blank hblank hattempted).2.2 e rfl hrepairs
    · exact hlawful.attempted_ready hready hattempted
  · have hready : p.site.Ready t := by
      obtain hblank | hready := hs
      · exact (hlawful.attempted_blank hblank hattempted).2.1 rfl
      · exact hlawful.attempted_ready hready hattempted ▸ hready
    refine ⟨hready.complete, fun result u hu => hlawful.attempted_ready hready hu, fun now => ?_⟩
    exact hlawful.attempt_of_ready hready now

/-- A server whose connection broke when it had made the first of its tables. -/
def brokenOff : Kept := { tables := [Schema.versionTableName] }

theorem brokenOff_attempted :
    postgres.site.Attempted {} (some (.error (.schema .postgres (PoolError.io "reset").message)))
      brokenOff := by
  obtain ⟨hstatements, hmade⟩ := Schema.statements_script (b := .postgres) (by decide)
  have hasked : Postgres.site.step True ({} : Kept) (.fetch Postgres.tableQuery [])
      (.ok (Postgres.told {} (.findTable Schema.versionTableName))) ({} : Kept) := by
    rw [Postgres.site_step]
    exact Machine.step_of_does Postgres.deed_table rfl
  have hbroken : Postgres.site.step True ({} : Kept)
      (.script (Schema.script .postgres (Schema.schema .postgres)))
      (.error (.io "reset")) brokenOff := by
    refine .inr ⟨trivial, ⟨_, rfl⟩, ?_⟩
    rw [Postgres.deed_script hmade]
    exact .some 1 rfl
  refine ⟨⟨0, 0⟩, brokenOff, ?_, rfl⟩
  refine Dialogue.Runs.said hasked ?_
  refine Dialogue.Runs.said hbroken ?_
  exact .ended _ _

theorem brokenOff_set_up :
    postgres.site.Reached brokenOff ∧
      (postgres.site.attempt ⟨0, 0⟩ brokenOff).1 = .ok () ∧
      (postgres.site.kept (postgres.site.attempt ⟨0, 0⟩ brokenOff).2).Complete .postgres := by
  have hreached : postgres.site.Reached brokenOff := .attempted .empty brokenOff_attempted
  exact ⟨hreached, (setup_repeatable postgres hreached).1 ⟨0, 0⟩⟩

end Place

end RequestLog.Store
