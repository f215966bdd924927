/-
# Retention.Orphans -- what a pass makes of artifacts without a route

A build that was waiting or encoding when its route was deleted publishes and records its
output all the same.  `run_once` looks for such leftovers among the rows of `movies` only:
a transcript's row or blob, or a movie's blob without a row, stays for good
(`late_transcript_stays`).

`Belongs` says that every row and blob of a movie or transcript is of a route that exists,
and `Reclaimable` which leftovers a pass can deal with: movies that have a row.  A pass by
itself establishes the one exactly when the other held before it (`belongs_iff`).
-/
import HomeConnect.Drives.Poles
import HomeConnect.Retention.Leftovers
import HomeConnect.Retention.Repull
import Mathlib.Data.List.Dedup

namespace HomeConnect.Retention

open HomeConnect.Theory HomeConnect.Storage HomeConnect.Drives HomeConnect.Media

set_option autoImplicit false

variable {env : Env} {w w' : World}

theorem ending_listed {f : Text} (listed : f ∈ SEGMENT_FILES) (dongle ts : Text) (seg : Int) :
    ending (env.path (.segment dongle ts seg f)) ≠ "4pm." ∧ ending (env.path (.segment dongle ts seg f)) ≠ "ttv." := by
  have each : ∀ f ∈ SEGMENT_FILES, 4 ≤ f.length ∧ (sanitize f).reverse.take 4 ≠ "4pm." ∧
      (sanitize f).reverse.take 4 ≠ "ttv." := by decide
  obtain ⟨long, not_movie, not_subs⟩ := each f listed
  rw [ending_segment env dongle ts seg long]
  exact ⟨not_movie, not_subs⟩

/-! ## Belonging to a route -/

def HasRoute (w : World) (name : Text) : Prop := (w.db.routes.get? name).isSome = true

/-- The path is that of a movie of a route that exists. -/
def MovieOwned (env : Env) (w : World) (path : BlobPath) : Prop :=
  ∃ dongle ts cam, '|' ∉ dongle ∧ cam ∈ MOVIE_CAMS ∧ env.path (.movie dongle ts cam) = path ∧
    HasRoute w (fullname dongle ts)

def SubsOwned (env : Env) (w : World) (path : BlobPath) : Prop :=
  ∃ dongle ts, '|' ∉ dongle ∧ env.path (.subs dongle ts) = path ∧ HasRoute w (fullname dongle ts)

/-- A movie's row without a route. -/
def OrphanMovie (w : World) (m : Movie) : Prop := m ∈ w.db.movies.rows ∧ ¬ HasRoute w m.fullname

/-- The path is that of the movie of a row without a route. -/
def OrphanAt (env : Env) (w : World) (path : BlobPath) : Prop :=
  ∃ m dongle ts, OrphanMovie w m ∧ Text.split_once '|' m.fullname = some (dongle, ts) ∧
    env.path (.movie dongle ts m.cam) = path

/-- Every row and blob of a movie or transcript is of a route that exists. -/
structure Belongs (env : Env) (w : World) : Prop where
  movies : ∀ m, ¬ OrphanMovie w m
  subs : ∀ s ∈ w.db.subs.rows, HasRoute w s.fullname
  movie_blobs : ∀ dongle ts cam, '|' ∉ dongle → cam ∈ MOVIE_CAMS →
    w.blobs.read (env.path (.movie dongle ts cam)) ≠ none → MovieOwned env w (env.path (.movie dongle ts cam))
  subs_blobs : ∀ dongle ts, '|' ∉ dongle →
    w.blobs.read (env.path (.subs dongle ts)) ≠ none → SubsOwned env w (env.path (.subs dongle ts))

/-- Every transcript's row and blob is of a route that exists, and every movie's blob too, or
the movie has a row. -/
structure Reclaimable (env : Env) (w : World) : Prop where
  subs : ∀ s ∈ w.db.subs.rows, HasRoute w s.fullname
  movie_blobs : ∀ dongle ts cam, '|' ∉ dongle → cam ∈ MOVIE_CAMS →
    w.blobs.read (env.path (.movie dongle ts cam)) ≠ none →
    MovieOwned env w (env.path (.movie dongle ts cam)) ∨ OrphanAt env w (env.path (.movie dongle ts cam))
  subs_blobs : ∀ dongle ts, '|' ∉ dongle →
    w.blobs.read (env.path (.subs dongle ts)) ≠ none → SubsOwned env w (env.path (.subs dongle ts))

/-- Movie rows are named as the builds name them. -/
structure Filed (db : Storage.Db) : Prop where
  separated : ∀ m ∈ db.movies.rows, '|' ∈ m.fullname
  cameras : ∀ m ∈ db.movies.rows, m.cam ∈ MOVIE_CAMS

/-! ## Deleting routes -/

/-- Exactly what the writes name is gone, and the routes of these names. -/
structure Pruned (env : Env) (writes : List Write) (names : List Text) (w w' : World) : Prop where
  routes : ∀ name, HasRoute w' name ↔ HasRoute w name ∧ name ∉ names
  blobs : ∀ path, w'.blobs.read path = none ↔
    w.blobs.read path = none ∨ ∃ name, .blob_delete name ∈ writes ∧ env.path name = path
  movies : ∀ m, m ∈ w'.db.movies.rows ↔
    m ∈ w.db.movies.rows ∧ ∀ name cam, .delete_movie name cam ∈ writes → m.id ≠ (name, cam)
  subs : ∀ s, s ∈ w'.db.subs.rows ↔
    s ∈ w.db.subs.rows ∧ ∀ name, .delete_subs name ∈ writes → s.fullname ≠ name

theorem Removed.pruned {writes : List Write} (removed : Removed env writes w w') :
    Pruned env writes [] w w' where
  routes := fun name => by
    unfold HasRoute
    rw [removed.same.routes]
    simp
  blobs := removed.blobs
  movies := removed.movies
  subs := removed.subs

theorem Pruned.trans {l m : List Write} {names more : List Text} {a b c : World}
    (first : Pruned env l names a b) (second : Pruned env m more b c) :
    Pruned env (l ++ m) (names ++ more) a c where
  routes := fun name => by
    rw [second.routes, first.routes, List.mem_append, not_or, and_assoc]
  blobs := fun path => by
    rw [second.blobs, first.blobs]
    simp only [List.mem_append, or_and_right, exists_or, or_assoc]
  movies := fun m => by
    rw [second.movies, first.movies]
    simp only [List.mem_append, or_imp, forall_and, and_assoc]
  subs := fun s => by
    rw [second.subs, first.subs]
    simp only [List.mem_append, or_imp, forall_and, and_assoc]

/-- What deletes a route's movies and transcript. -/
def clip_removals (dongle ts : Text) : List Write :=
  MOVIE_CAMS.flatMap (movie_removals dongle ts) ++ subs_removals dongle ts

/-- The write is one of deleting one of the routes. -/
def OfRoutes (names : List Text) (s : Write) : Prop :=
  ∃ name ∈ names, ∃ dongle ts segs, Text.split_once '|' name = some (dongle, ts) ∧ s ∈ removals dongle ts segs

/-- These routes were deleted, and nothing else. -/
def RoutesGone (env : Env) (names : List Text) (w w' : World) : Prop :=
  ∃ writes, Pruned env writes names w w' ∧ (∀ s ∈ writes, OfRoutes names s) ∧
    ∀ name ∈ names, ∀ dongle ts, Text.split_once '|' name = some (dongle, ts) →
      ∀ s ∈ clip_removals dongle ts, s ∈ writes

theorem RoutesGone.refl (w : World) : RoutesGone env [] w w :=
  ⟨[], (Removed.refl w).pruned, fun _ none => (List.not_mem_nil none).elim,
    fun _ none => (List.not_mem_nil none).elim⟩

theorem RoutesGone.trans {names more : List Text} {a b c : World} (first : RoutesGone env names a b)
    (second : RoutesGone env more b c) : RoutesGone env (names ++ more) a c := by
  obtain ⟨l, pruned, of_routes, complete⟩ := first
  obtain ⟨m, pruned', of_routes', complete'⟩ := second
  refine ⟨l ++ m, pruned.trans pruned', fun s member => ?_, fun name member dongle ts split s listed => ?_⟩
  · rcases List.mem_append.1 member with here | there
    · obtain ⟨name, deleted, rest⟩ := of_routes s here
      exact ⟨name, List.mem_append_left _ deleted, rest⟩
    · obtain ⟨name, deleted, rest⟩ := of_routes' s there
      exact ⟨name, List.mem_append_right _ deleted, rest⟩
  · rcases List.mem_append.1 member with here | there
    · exact List.mem_append_left _ (complete name here dongle ts split s listed)
    · exact List.mem_append_right _ (complete' name there dongle ts split s listed)

variable (env) in
/-- One deletion. -/
theorem routes_gone_one {name : Text} (separated : '|' ∈ name) (w : World) :
    RoutesGone env [name] w (alone env (delete_route name) w).2 := by
  obtain ⟨⟨dongle, ts⟩, split⟩ := Text.split_once_of_mem separated
  obtain ⟨cleaned, removed, ran⟩ := delete_route_alone env split w
  rw [ran]
  have pruned := removed.pruned
  refine ⟨removals dongle ts (segment_numbers name w), ⟨fun other => ?_, pruned.blobs, pruned.movies,
    pruned.subs⟩, fun s member => ?_, fun other member d t split' s listed => ?_⟩
  · have before := pruned.routes other
    rw [← and_iff_left_of_imp (a := HasRoute w other) (b := other ∉ ([] : List Text)) fun _ => List.not_mem_nil,
      ← before]
    unfold HasRoute without_rows
    dsimp only
    rw [Table.get?_delete, List.mem_singleton]
    cases found : cleaned.db.routes.get? other with
    | none => simp
    | some r =>
        have is := Table.key_of_get? found
        by_cases own : other = name
        · simp [is, own]
        · simp [is, own]
  · exact ⟨name, List.mem_singleton.2 rfl, dongle, ts, _, split, member⟩
  · rw [List.mem_singleton.1 member, split] at split'
    cases split'
    exact List.mem_append_right _ listed

variable (env) in
theorem routes_gone_all {names : List Text} (separated : ∀ name ∈ names, '|' ∈ name) (w : World) :
    ∃ w', alone env (names.forM delete_route) w = (.ok (), w') ∧ RoutesGone env names w w' := by
  induction names generalizing w with
  | nil => exact ⟨w, rfl, .refl w⟩
  | cons name rest ih =>
      have one := routes_gone_one env (separated name List.mem_cons_self) w
      obtain ⟨w', ran, gone⟩ := ih (fun n member => separated n (List.mem_cons_of_mem _ member))
        (alone env (delete_route name) w).2
      refine ⟨w', ?_, one.trans gone⟩
      change alone env (delete_route name >>= fun _ => rest.forM delete_route) w = _
      rw [alone_bind_ok (delete_route_ok name w)]
      exact ran

/-! ## What deleting routes does to leftovers -/

theorem name_of_split {name dongle ts : Text} (split : Text.split_once '|' name = some (dongle, ts)) :
    name = fullname dongle ts ∧ '|' ∉ dongle := by
  obtain ⟨whole, clean⟩ := Text.split_once_eq_some split
  rw [fullname, List.append_assoc]
  exact ⟨whole, clean⟩

/-- A deletion touches rows of its own routes only. -/
theorem row_of_routes {names : List Text} {writes : List Write}
    (of_routes : ∀ s ∈ writes, OfRoutes names s) {name : Text} {cam : Text}
    (deleted : .delete_movie name cam ∈ writes ∨ .delete_subs name ∈ writes) : name ∈ names := by
  rcases deleted with movie | subs
  · obtain ⟨n, listed, dongle, ts, segs, split, member⟩ := of_routes _ movie
    rwa [(delete_movie_mem_removals.1 member).2, ← (name_of_split split).1]
  · obtain ⟨n, listed, dongle, ts, segs, split, member⟩ := of_routes _ subs
    rwa [delete_subs_mem_removals.1 member, ← (name_of_split split).1]

/-- ... and blobs of segments, of movies and transcripts of its own routes. -/
theorem blob_of_routes {names : List Text} {writes : List Write} (of_routes : ∀ s ∈ writes, OfRoutes names s)
    {name : BlobName} (deleted : .blob_delete name ∈ writes) :
    (∃ dongle ts seg f, f ∈ SEGMENT_FILES ∧ name = .segment dongle ts seg f) ∨
      ∃ dongle ts, '|' ∉ dongle ∧ fullname dongle ts ∈ names ∧
        ((∃ cam ∈ MOVIE_CAMS, name = .movie dongle ts cam) ∨ name = .subs dongle ts) := by
  obtain ⟨n, listed, dongle, ts, segs, split, member⟩ := of_routes _ deleted
  obtain ⟨is, clean⟩ := name_of_split split
  rw [is] at listed
  rcases List.mem_append.1 member with segment | clip
  · obtain ⟨seg, _, removal⟩ := List.mem_flatMap.1 segment
    rcases List.mem_append.1 removal with blob | transcode
    · obtain ⟨f, file, same⟩ := List.mem_map.1 blob
      cases same
      exact .inl ⟨dongle, ts, seg, f, file, rfl⟩
    · obtain ⟨cam, _, same⟩ := List.mem_map.1 transcode
      cases same
  · refine .inr ⟨dongle, ts, clean, listed, ?_⟩
    rcases List.mem_append.1 clip with movie | subs
    · obtain ⟨cam, known, removal⟩ := List.mem_flatMap.1 movie
      rcases List.mem_cons.1 removal with same | other
      · cases same
        exact .inl ⟨cam, known, rfl⟩
      · cases List.mem_singleton.1 other
    · rcases List.mem_cons.1 subs with same | other
      · cases same
        exact .inr rfl
      · cases List.mem_singleton.1 other

theorem filed_of_gone {names : List Text} (gone : RoutesGone env names w w') (filed : Filed w.db) : Filed w'.db := by
  obtain ⟨writes, pruned, _, _⟩ := gone
  exact ⟨fun m row => filed.separated m ((pruned.movies m).1 row).1,
    fun m row => filed.cameras m ((pruned.movies m).1 row).1⟩

section Gone

variable {names : List Text} (gone : RoutesGone env names w w') (there : ∀ name ∈ names, HasRoute w name)
  (separated : ∀ name ∈ names, '|' ∈ name)

include gone there

theorem orphans_of_gone (filed : Filed w.db) (m : Movie) : OrphanMovie w' m ↔ OrphanMovie w m := by
  obtain ⟨writes, pruned, of_routes, complete⟩ := gone
  unfold OrphanMovie
  rw [pruned.movies, pruned.routes]
  constructor
  · rintro ⟨⟨row, kept⟩, without⟩
    refine ⟨row, fun has => without ⟨has, fun listed => ?_⟩⟩
    -- the row was deleted with its route
    obtain ⟨⟨dongle, ts⟩, split⟩ := Text.split_once_of_mem (filed.separated m row)
    refine kept m.fullname m.cam (complete _ listed dongle ts split _ ?_) rfl
    rw [(name_of_split split).1]
    refine List.mem_append_left _ (List.mem_flatMap.2 ⟨m.cam, filed.cameras m row, ?_⟩)
    exact List.mem_cons_of_mem _ List.mem_cons_self
  · rintro ⟨row, without⟩
    refine ⟨⟨row, fun name cam deleted same => without ?_⟩, fun has => without has.1⟩
    have is : m.fullname = name := (Prod.ext_iff.1 same).1
    rw [is]
    exact there name (row_of_routes of_routes (.inl deleted))

theorem orphan_at_of_gone (filed : Filed w.db) (path : BlobPath) :
    OrphanAt env w' path ↔ OrphanAt env w path := by
  unfold OrphanAt
  simp only [orphans_of_gone gone there filed]

/-- A movie's blob without a route is one before and after. -/
theorem movie_blob_of_gone (dongle ts cam : Text) :
    (w'.blobs.read (env.path (.movie dongle ts cam)) ≠ none ∧
        ¬ MovieOwned env w' (env.path (.movie dongle ts cam))) ↔
      w.blobs.read (env.path (.movie dongle ts cam)) ≠ none ∧
        ¬ MovieOwned env w (env.path (.movie dongle ts cam)) := by
  obtain ⟨writes, pruned, of_routes, complete⟩ := gone
  have kind := ending_movie env dongle ts cam
  constructor
  · rintro ⟨present, unowned⟩
    rw [Ne, pruned.blobs, not_or] at present
    refine ⟨present.1, fun owned => ?_⟩
    obtain ⟨d, t, c, clean, known, same, route⟩ := owned
    by_cases listed : fullname d t ∈ names
    · refine present.2 ⟨.movie d t c, complete _ listed d t (fullname_split clean t) _ ?_, same⟩
      exact List.mem_append_left _ (List.mem_flatMap.2 ⟨c, known, List.mem_cons_self⟩)
    · exact unowned ⟨d, t, c, clean, known, same, (pruned.routes _).2 ⟨route, listed⟩⟩
  · rintro ⟨present, unowned⟩
    refine ⟨fun absent => ?_, fun owned => ?_⟩
    · rcases (pruned.blobs _).1 absent with before | ⟨name, deleted, same⟩
      · exact present before
      · rcases blob_of_routes of_routes deleted with ⟨d, t, seg, f, file, rfl⟩ |
          ⟨d, t, clean, listed, ⟨c, known, rfl⟩ | rfl⟩
        · rw [← same] at kind
          exact (ending_listed file d t seg).1 kind
        · exact unowned ⟨d, t, c, clean, known, same, there _ listed⟩
        · rw [← same, ending_subs] at kind
          cases kind
    · obtain ⟨d, t, c, clean, known, same, route⟩ := owned
      exact unowned ⟨d, t, c, clean, known, same, ((pruned.routes _).1 route).1⟩

theorem subs_blob_of_gone (dongle ts : Text) :
    (w'.blobs.read (env.path (.subs dongle ts)) ≠ none ∧ ¬ SubsOwned env w' (env.path (.subs dongle ts))) ↔
      w.blobs.read (env.path (.subs dongle ts)) ≠ none ∧ ¬ SubsOwned env w (env.path (.subs dongle ts)) := by
  obtain ⟨writes, pruned, of_routes, complete⟩ := gone
  have kind := ending_subs env dongle ts
  constructor
  · rintro ⟨present, unowned⟩
    rw [Ne, pruned.blobs, not_or] at present
    refine ⟨present.1, fun owned => ?_⟩
    obtain ⟨d, t, clean, same, route⟩ := owned
    by_cases listed : fullname d t ∈ names
    · refine present.2 ⟨.subs d t, complete _ listed d t (fullname_split clean t) _ ?_, same⟩
      exact List.mem_append_right _ List.mem_cons_self
    · exact unowned ⟨d, t, clean, same, (pruned.routes _).2 ⟨route, listed⟩⟩
  · rintro ⟨present, unowned⟩
    refine ⟨fun absent => ?_, fun owned => ?_⟩
    · rcases (pruned.blobs _).1 absent with before | ⟨name, deleted, same⟩
      · exact present before
      · rcases blob_of_routes of_routes deleted with ⟨d, t, seg, f, file, rfl⟩ |
          ⟨d, t, clean, listed, ⟨c, known, rfl⟩ | rfl⟩
        · rw [← same] at kind
          exact (ending_listed file d t seg).2 kind
        · rw [← same, ending_movie] at kind
          cases kind
        · exact unowned ⟨d, t, clean, same, there _ listed⟩
    · obtain ⟨d, t, clean, same, route⟩ := owned
      exact unowned ⟨d, t, clean, same, ((pruned.routes _).1 route).1⟩

include separated

theorem subs_of_gone :
    (∀ s ∈ w'.db.subs.rows, HasRoute w' s.fullname) ↔ ∀ s ∈ w.db.subs.rows, HasRoute w s.fullname := by
  obtain ⟨writes, pruned, of_routes, complete⟩ := gone
  constructor
  · intro all s row
    by_contra without
    have kept : s ∈ w'.db.subs.rows := by
      refine (pruned.subs s).2 ⟨row, fun name deleted same => without ?_⟩
      rw [same]
      exact there name (@row_of_routes _ _ of_routes _ [] (.inr deleted))
    exact without ((pruned.routes _).1 (all s kept)).1
  · intro all s row
    obtain ⟨old, kept⟩ := (pruned.subs s).1 row
    refine (pruned.routes _).2 ⟨all s old, fun listed => ?_⟩
    obtain ⟨⟨dongle, ts⟩, split⟩ := Text.split_once_of_mem (separated _ listed)
    refine kept s.fullname (complete _ listed dongle ts split _ ?_) rfl
    rw [(name_of_split split).1]
    exact List.mem_append_right _ (List.mem_cons_of_mem _ List.mem_cons_self)

/-- Deleting routes neither makes nor clears a leftover. -/
theorem belongs_of_gone (filed : Filed w.db) : Belongs env w' ↔ Belongs env w := by
  have orphans := orphans_of_gone gone there filed
  have subs := subs_of_gone gone there separated
  have movie_blob := movie_blob_of_gone gone there
  have subs_blob := subs_blob_of_gone gone there
  constructor
  · rintro ⟨movies, rows, movie_blobs, subs_blobs⟩
    refine ⟨fun m orphan => movies m ((orphans m).2 orphan), subs.1 rows, ?_, ?_⟩
    · intro dongle ts cam clean known
      rw [← not_and_not_right, ← movie_blob, not_and_not_right]
      exact movie_blobs dongle ts cam clean known
    · intro dongle ts clean
      rw [← not_and_not_right, ← subs_blob, not_and_not_right]
      exact subs_blobs dongle ts clean
  · rintro ⟨movies, rows, movie_blobs, subs_blobs⟩
    refine ⟨fun m orphan => movies m ((orphans m).1 orphan), subs.2 rows, ?_, ?_⟩
    · intro dongle ts cam clean known
      rw [← not_and_not_right, movie_blob, not_and_not_right]
      exact movie_blobs dongle ts cam clean known
    · intro dongle ts clean
      rw [← not_and_not_right, subs_blob, not_and_not_right]
      exact subs_blobs dongle ts clean

theorem reclaimable_of_gone (filed : Filed w.db) : Reclaimable env w' ↔ Reclaimable env w := by
  have subs := subs_of_gone gone there separated
  have movie_blob := movie_blob_of_gone gone there
  have subs_blob := subs_blob_of_gone gone there
  have orphan_at := orphan_at_of_gone gone there filed
  -- a blob is a problem when it is there, has no owner and is of no row
  have problem : ∀ (v : World) (path : BlobPath), (v.blobs.read path ≠ none →
      MovieOwned env v path ∨ OrphanAt env v path) ↔
        ¬ ((v.blobs.read path ≠ none ∧ ¬ MovieOwned env v path) ∧ ¬ OrphanAt env v path) := by
    intro v path
    rw [and_assoc, ← not_or, not_and_not_right]
  constructor
  · rintro ⟨rows, movie_blobs, subs_blobs⟩
    refine ⟨subs.1 rows, ?_, ?_⟩
    · intro dongle ts cam clean known
      rw [problem, ← movie_blob, ← orphan_at, ← problem]
      exact movie_blobs dongle ts cam clean known
    · intro dongle ts clean
      rw [← not_and_not_right, ← subs_blob, not_and_not_right]
      exact subs_blobs dongle ts clean
  · rintro ⟨rows, movie_blobs, subs_blobs⟩
    refine ⟨subs.2 rows, ?_, ?_⟩
    · intro dongle ts cam clean known
      rw [problem, movie_blob, orphan_at, ← problem]
      exact movie_blobs dongle ts cam clean known
    · intro dongle ts clean
      rw [← not_and_not_right, subs_blob, not_and_not_right]
      exact subs_blobs dongle ts clean

end Gone

/-! ## Reclaiming -/

/-- What reclaiming an orphan writes. -/
def reclaim_writes (orphan : Text × Text) : List Write :=
  match Text.split_once '|' orphan.1 with
  | some (dongle, ts) => movie_removals dongle ts orphan.2
  | none => []

theorem attempts_reclaim (orphan : Text × Text) : Attempts env (reclaim orphan) (reclaim_writes orphan) := by
  unfold reclaim reclaim_writes
  cases Text.split_once '|' orphan.1 with
  | none => exact Attempts.pure
  | some p => exact attempts_delete_movie env p.1 p.2 orphan.2

theorem mem_reclaim_writes {listed : List (Text × Text)} {s : Write} :
    s ∈ listed.flatMap reclaim_writes ↔ ∃ o ∈ listed, ∃ dongle ts,
      Text.split_once '|' o.1 = some (dongle, ts) ∧
        (s = .blob_delete (.movie dongle ts o.2) ∨ s = .delete_movie o.1 o.2) := by
  rw [List.mem_flatMap]
  refine exists_congr fun o => and_congr_right fun _ => ?_
  unfold reclaim_writes
  cases split : Text.split_once '|' o.1 with
  | none => simp
  | some p =>
      obtain ⟨dongle, ts⟩ := p
      have is := (name_of_split split).1
      have writes : movie_removals dongle ts o.2 = [.blob_delete (.movie dongle ts o.2), .delete_movie o.1 o.2] := by
        rw [is]
        rfl
      dsimp only
      rw [writes]
      simp

theorem mem_orphans {o : Text × Text} : o ∈ orphans w ↔ ∃ m, OrphanMovie w m ∧ m.id = o := by
  unfold orphans OrphanMovie HasRoute
  simp [and_assoc]

/-- Reclaiming clears exactly the leftovers among movies that have a row. -/
theorem belongs_of_reclaimed (removed : Removed env ((orphans w).flatMap reclaim_writes) w w')
    (filed : Filed w.db) : Belongs env w' ↔ Reclaimable env w := by
  have same_route : ∀ name, HasRoute w' name ↔ HasRoute w name := by
    intro name
    unfold HasRoute
    rw [removed.same.routes]
  have movie_owned : ∀ path, MovieOwned env w' path ↔ MovieOwned env w path := by
    intro path
    unfold MovieOwned
    simp only [same_route]
  have subs_owned : ∀ path, SubsOwned env w' path ↔ SubsOwned env w path := by
    intro path
    unfold SubsOwned
    simp only [same_route]
  have removes : ∀ name, .blob_delete name ∈ (orphans w).flatMap reclaim_writes ↔
      ∃ m dongle ts, OrphanMovie w m ∧ Text.split_once '|' m.fullname = some (dongle, ts) ∧
        name = .movie dongle ts m.cam := by
    intro name
    rw [mem_reclaim_writes]
    constructor
    · rintro ⟨o, listed, dongle, ts, split, same | other⟩
      · obtain ⟨m, orphan, rfl⟩ := mem_orphans.1 listed
        cases same
        exact ⟨m, dongle, ts, orphan, split, rfl⟩
      · cases other
    · rintro ⟨m, dongle, ts, orphan, split, rfl⟩
      exact ⟨m.id, mem_orphans.2 ⟨m, orphan, rfl⟩, dongle, ts, split, .inl rfl⟩
  have same_rows : ∀ s, s ∈ w'.db.subs.rows ↔ s ∈ w.db.subs.rows := by
    intro s
    rw [removed.subs]
    refine and_iff_left fun name deleted => ?_
    obtain ⟨o, _, dongle, ts, _, other | other⟩ := mem_reclaim_writes.1 deleted
    · cases other
    · cases other
  have present_movie : ∀ path, w'.blobs.read path ≠ none ↔
      w.blobs.read path ≠ none ∧ ¬ OrphanAt env w path := by
    intro path
    rw [Ne, removed.blobs, not_or]
    refine and_congr_right fun _ => not_congr ?_
    constructor
    · rintro ⟨name, deleted, same⟩
      obtain ⟨m, dongle, ts, orphan, split, rfl⟩ := (removes name).1 deleted
      exact ⟨m, dongle, ts, orphan, split, same⟩
    · rintro ⟨m, dongle, ts, orphan, split, same⟩
      exact ⟨_, (removes _).2 ⟨m, dongle, ts, orphan, split, rfl⟩, same⟩
  have no_transcript : ∀ dongle ts, ¬ OrphanAt env w (env.path (.subs dongle ts)) := by
    rintro dongle ts ⟨m, d, t, _, _, same⟩
    have kind := ending_movie env d t m.cam
    rw [same, ending_subs] at kind
    cases kind
  constructor
  · rintro ⟨_, rows, movie_blobs, subs_blobs⟩
    refine ⟨fun s row => (same_route _).1 (rows s ((same_rows s).2 row)), ?_, ?_⟩
    · intro dongle ts cam clean known present
      by_cases orphan : OrphanAt env w (env.path (.movie dongle ts cam))
      · exact .inr orphan
      · exact .inl ((movie_owned _).1 (movie_blobs dongle ts cam clean known
          ((present_movie _).2 ⟨present, orphan⟩)))
    · intro dongle ts clean present
      exact (subs_owned _).1 (subs_blobs dongle ts clean
        ((present_movie _).2 ⟨present, no_transcript dongle ts⟩))
  · rintro ⟨rows, movie_blobs, subs_blobs⟩
    refine ⟨?_, fun s row => (same_route _).2 (rows s ((same_rows s).1 row)), ?_, ?_⟩
    · rintro m ⟨row, without⟩
      obtain ⟨old, kept⟩ := (removed.movies m).1 row
      have orphan : OrphanMovie w m := ⟨old, fun has => without ((same_route _).2 has)⟩
      obtain ⟨⟨dongle, ts⟩, split⟩ := Text.split_once_of_mem (filed.separated m old)
      refine kept m.fullname m.cam (mem_reclaim_writes.2 ?_) rfl
      exact ⟨m.id, mem_orphans.2 ⟨m, orphan, rfl⟩, dongle, ts, split, .inr rfl⟩
    · intro dongle ts cam clean known present
      obtain ⟨before, no_row⟩ := (present_movie _).1 present
      rcases movie_blobs dongle ts cam clean known before with owned | orphan
      · exact (movie_owned _).2 owned
      · exact (no_row orphan).elim
    · intro dongle ts clean present
      exact (subs_owned _).2 (subs_blobs dongle ts clean ((present_movie _).1 present).1)

/-! ## A pass -/

variable (env) in
/-- Only routes that exist are marked. -/
theorem marked_alone (policy : Policy) (w : World) :
    ∃ marked, alone env (to_delete policy) w = (.ok marked, w) ∧
      ∀ name ∈ marked, ∃ r ∈ w.db.routes.rows, r.fullname = name := by
  obtain ⟨old, by_age, aged⟩ : ∃ old, alone env (past_cutoff policy) w = (.ok old, w) ∧
      ∀ name ∈ old, ∃ r ∈ w.db.routes.rows, r.fullname = name := by
    by_cases days : policy.days > 0
    · rw [past_cutoff, if_pos days]
      refine ⟨_, alone_select _ _, fun name member => ?_⟩
      obtain ⟨r, listed, rfl⟩ := List.mem_map.1 member
      exact ⟨r, (List.mem_filter.1 listed).1, rfl⟩
    · rw [past_cutoff, if_neg days]
      exact ⟨[], rfl, nofun⟩
  obtain ⟨above, by_count, counted⟩ : ∃ above, alone env (past_caps policy) w = (.ok above, w) ∧
      ∀ name ∈ above, ∃ r ∈ w.db.routes.rows, r.fullname = name := by
    by_cases capped : policy.max_drives > 0
    · refine ⟨_, past_caps_alone capped w, fun name member => ?_⟩
      obtain ⟨device, _, beyond⟩ := List.mem_flatMap.1 member
      obtain ⟨r, dropped, rfl⟩ := List.mem_map.1 beyond
      have listed := (List.mem_insertionSort _).1 (List.mem_of_mem_drop dropped)
      exact ⟨r, (List.mem_filter.1 listed).1, rfl⟩
    · rw [past_caps, if_neg capped]
      exact ⟨[], rfl, nofun⟩
  refine ⟨name_set (old ++ above), ?_, fun name member => ?_⟩
  · rw [to_delete, alone_bind_ok by_age, alone_bind_ok by_count]
    rfl
  · rw [name_set, List.mem_insertionSort, List.mem_dedup, List.mem_append] at member
    rcases member with here | there
    · exact aged name here
    · exact counted name there

theorem has_route_of_row {r : Route} (row : r ∈ w.db.routes.rows) : HasRoute w r.fullname := by
  unfold HasRoute
  rw [Table.get?_eq_some.2 ⟨row, rfl⟩]
  rfl

variable (env) in
/-- The storage loop deletes routes that exist. -/
theorem storage_gone (cap rounds : Nat) (w : World) (separated : ∀ name, HasRoute w name → '|' ∈ name) :
    ∃ names, RoutesGone env names w (alone env (storage_loop cap rounds) w).2 ∧
      ∀ name ∈ names, HasRoute w name := by
  induction rounds generalizing w with
  | zero => exact ⟨[], .refl w, nofun⟩
  | succ rounds ih =>
      cases first : oldest w.db with
      | none =>
          rw [storage_loop_idle (.inr first)]
          exact ⟨[], .refl w, nofun⟩
      | some r =>
          by_cases above : storage_bytes w > cap
          · have route := has_route_of_row (Ranking.least_of_head oldest_first first).1
            have one := routes_gone_one env (separated _ route) w
            obtain ⟨writes, pruned, _⟩ := id one
            obtain ⟨names, gone, there⟩ := ih (alone env (delete_route r.fullname) w).2
              fun name has => separated name ((pruned.routes name).1 has).1
            have whole : ∀ name ∈ [r.fullname] ++ names, HasRoute w name := by
              intro name member
              rcases List.mem_append.1 member with here | later
              · rwa [List.mem_singleton.1 here]
              · exact ((pruned.routes name).1 (there name later)).1
            rw [storage_loop_deletes above first, alone_bind]
            split
            · exact ⟨_, one.trans gone, whole⟩
            · exact ⟨_, one.trans gone, whole⟩
          · rw [storage_loop_idle (.inl above)]
            exact ⟨[], .refl w, nofun⟩

variable (env) in
/-- The pass up to the storage cap: the marked routes are deleted, and then the movies left
without a route. -/
theorem prune_marked_alone (policy : Policy) (w : World) (separated : ∀ name, HasRoute w name → '|' ∈ name) :
    ∃ marked w₁ w₂, (∀ name ∈ marked, HasRoute w name) ∧ RoutesGone env marked w w₁ ∧
      Removed env ((orphans w₁).flatMap reclaim_writes) w₁ w₂ ∧
      alone env (prune_marked policy) w = (.ok marked.length, w₂) := by
  obtain ⟨marked, chosen, exist⟩ := marked_alone env policy w
  have there : ∀ name ∈ marked, HasRoute w name := by
    intro name member
    obtain ⟨r, row, rfl⟩ := exist name member
    exact has_route_of_row row
  obtain ⟨w₁, deleted, gone⟩ := routes_gone_all env
    (fun name member => separated name (there name member)) w
  have attempts : Attempts env ((orphans w₁).forM reclaim) ((orphans w₁).flatMap reclaim_writes) :=
    Attempts.forM fun o _ => attempts_reclaim o
  refine ⟨marked, w₁, _, there, gone, removed_foldl (fun s member => ?_) w₁, ?_⟩
  · obtain ⟨o, _, dongle, ts, _, rfl | rfl⟩ := mem_reclaim_writes.1 member
    · trivial
    · trivial
  · rw [prune_marked, alone_bind_ok chosen, alone_bind_ok deleted, alone_bind_ok (alone_select _ _),
      alone_bind_ok (attempts w₁)]
    rfl

/-- **A pass by itself.**  Afterwards every row and blob of a movie or transcript is of a
route that exists, exactly if before it the leftovers were reclaimable. -/
theorem belongs_iff (policy : Policy) (rounds : Nat) (w : World) (named : Named w.db) (filed : Filed w.db) :
    Belongs env (after_pass env policy rounds w) ↔ Reclaimable env w := by
  have separated : ∀ name, HasRoute w name → '|' ∈ name := by
    intro name has
    obtain ⟨r, found⟩ := Option.isSome_iff_exists.1 has
    obtain ⟨row, rfl⟩ := Table.get?_eq_some.1 found
    exact (named.routes r row).separated
  obtain ⟨marked, w₁, w₂, there, gone, removed, pruned⟩ := prune_marked_alone env policy w separated
  have filed₁ := filed_of_gone gone filed
  have stage : Belongs env w₂ ↔ Reclaimable env w := by
    rw [belongs_of_reclaimed removed filed₁]
    exact reclaimable_of_gone gone there (fun name member => separated name (there name member)) filed
  rw [after_pass, run_once, alone_bind_ok pruned]
  by_cases capped : policy.max_gb > 0
  · rw [if_pos capped, alone_bind]
    have separated₂ : ∀ name, HasRoute w₂ name → '|' ∈ name := by
      intro name has
      unfold HasRoute at has
      rw [removed.same.routes] at has
      obtain ⟨writes, first, _⟩ := gone
      exact separated name ((first.routes name).1 has).1
    obtain ⟨names, later, there₂⟩ := storage_gone env (cap_bytes policy) rounds w₂ separated₂
    have filed₂ : Filed w₂.db :=
      ⟨fun m row => filed₁.separated m ((removed.movies m).1 row).1,
        fun m row => filed₁.cameras m ((removed.movies m).1 row).1⟩
    have kept := belongs_of_gone later there₂ (fun name member => separated₂ name (there₂ name member)) filed₂
    rw [← stage, ← kept]
    split
    · exact Iff.rfl
    · exact Iff.rfl
  · rw [if_neg capped]
    exact stage

/-! ## Builds, deletions and passes at once -/

inductive ArtifactJob
  | movie_sweep
  | subs_sweep
  | delete_route (name : Text)
  | run_once (policy : Policy) (rounds : Nat)
deriving DecidableEq, Repr

def ArtifactJob.handle (env : Env) : ArtifactJob → Request Op Unit
  | .movie_sweep => Media.movie_sweep env
  | .subs_sweep => Media.subs_sweep env
  | .delete_route name => Retention.delete_route name
  | .run_once policy rounds => Request.ignore (Retention.run_once policy rounds)

abbrev ArtifactTask := Task ArtifactJob Op (AppResult Unit)

def artifactRules (env : Env) : Pool.Rules World ArtifactTask ArtifactJob Outcome where
  act job w := some (w, [⟨job, (job.handle env).run⟩])
  turn := Task.turn (Op.exec env)

/-- Movies are recorded under a route's name, for one of the four cameras. -/
def Files : Write → Prop
  | .record_movie name cam _ _ _ => '|' ∈ name ∧ cam ∈ MOVIE_CAMS
  | .disable_movie _ _ => False
  | _ => True

theorem writes_artifact_job (env : Env) (job : ArtifactJob) : WritesOnly Files (job.handle env) := by
  cases job with
  | movie_sweep =>
      refine (writes_movie_sweep env).only.mono ?_
      rintro s ⟨dongle, ts, cam, known, movie⟩
      cases s with
      | record_movie name c seg_count bytes duration =>
          obtain ⟨rfl, rfl⟩ := movie
          exact ⟨by simp [fullname], known⟩
      | disable_movie => exact movie.elim
      | _ => trivial
  | subs_sweep =>
      refine (writes_subs_sweep env).only.mono ?_
      rintro s ⟨dongle, ts, subs⟩
      cases s with
      | record_movie => exact subs.elim
      | disable_movie => exact subs.elim
      | _ => trivial
  | delete_route name =>
      refine (writes_delete_route name).only.mono fun s prunes => ?_
      cases s with
      | record_movie => exact prunes.elim
      | disable_movie => exact prunes.elim
      | _ => trivial
  | run_once policy rounds =>
      refine (Writes.ignore (writes_run_once policy rounds)).only.mono fun s prunes => ?_
      cases s with
      | record_movie => exact prunes.elim
      | disable_movie => exact prunes.elim
      | _ => trivial

theorem Filed.exec {s : Write} (filed : Filed w.db) (files : Files s) (done : s.exec env w = some w') :
    Filed w'.db := by
  cases s with
  | record_movie name cam seg_count bytes duration =>
      cases done
      have each : ∀ m ∈ (w.db.movies.upsert
          { fullname := name, cam, seg_count, bytes, duration, built_at := w.now / 1000 }
          (fun m => { m with seg_count, bytes, duration, built_at := w.now / 1000 }) fun _ => rfl).rows,
          '|' ∈ m.fullname ∧ m.cam ∈ MOVIE_CAMS := by
        intro m member
        rw [Table.upsert] at member
        split at member
        · rcases Table.mem_insertIfAbsent.1 member with old | ⟨rfl, _⟩
          · exact ⟨filed.separated m old, filed.cameras m old⟩
          · exact files
        · obtain ⟨b, old, rfl⟩ := List.mem_map.1 member
          split <;> exact ⟨filed.separated b old, filed.cameras b old⟩
      exact ⟨fun m row => (each m row).1, fun m row => (each m row).2⟩
  | delete_movie name cam =>
      cases done
      exact ⟨fun m row => filed.separated m (Table.mem_delete.1 row).1,
        fun m row => filed.cameras m (Table.mem_delete.1 row).1⟩
  | delete_enabled_movies =>
      cases done
      exact ⟨fun m row => filed.separated m (Table.mem_delete.1 row).1,
        fun m row => filed.cameras m (Table.mem_delete.1 row).1⟩
  | disable_movie => exact files.elim
  | _ =>
      have movies := (Write.framed done).movies (by simp [Write.part])
      exact ⟨by rw [movies]; exact filed.separated, by rw [movies]; exact filed.cameras⟩

/-- **No artifact outlives its route**, in the state a run of builds, deletions and passes has
led to and after one more pass by itself, exactly when the leftovers of the run are
reclaimable. -/
theorem artifacts_belong_iff (env : Env) (w : World) (named : Named w.db) (filed : Filed w.db)
    (p : Pool World ArtifactTask) (reached : (artifactRules env).system.Reach System.free ⟨w, []⟩ p)
    (policy : Policy) (rounds : Nat) :
    Belongs env (after_pass env policy rounds p.shared) ↔ Reclaimable env p.shared := by
  have kept : (Named p.shared.db ∧ Filed p.shared.db) ∧ _ :=
    Task.reach_uses (I := fun w => Named w.db ∧ Filed w.db) (fun f => ∀ s, f.write? = some s → Files s)
      reached ⟨named, filed⟩ ?_ ?_
  · exact belongs_iff policy rounds p.shared kept.1.1 kept.1.2
  · intro job w w' ts kept acted
    cases acted
    refine ⟨kept, fun t member => ?_⟩
    cases List.mem_singleton.1 member
    exact writes_artifact_job env job
  · intro β f o w files kept
    rcases Op.exec_cases env f o w with same | ⟨s, w', is, _, done, after⟩ | ⟨q, same⟩
    · rw [same]; exact kept
    · rw [after]; exact ⟨kept.1.exec done, kept.2.exec (files s is) done⟩
    · rw [same]; exact kept

/-! ## Poles -/

/-- A drive of one segment with its qcamera. -/
private def heard_drive : World :=
  { one_drive (.single { drive_segment 0 with qcam_url := "u" }) with
    db.settings := ⟨[⟨"movie_enabled", "1"⟩, ⟨"subs_enabled", "1"⟩, ⟨"whisper_url", "h"⟩], by decide⟩
    blobs := Dir.write Table.empty (plain_env.path (.segment "d" "t" 0 "qcamera.ts")) [1] }

private theorem heard_drive_named : Named heard_drive.db :=
  have named := named_one_drive (.single { drive_segment 0 with qcam_url := "u" }) (by decide)
  ⟨named.devices, named.routes, named.segments⟩

private theorem heard_drive_filed : Filed heard_drive.db := ⟨nofun, nofun⟩

/-- The route is deleted by the second task. -/
private def deleted_meanwhile : List (Pool.Event ArtifactJob Outcome) :=
  .act (.delete_route "d|t") :: List.replicate 29 (.turn 1 .ok)

/-- A transcript under way, its route deleted before it is stored. -/
private def late_transcript : List (Pool.Event ArtifactJob Outcome) :=
  .act .subs_sweep :: List.replicate 6 (.turn 0 .ok) ++
    [.turn 0 (.encoded [1]), .turn 0 (.probed 60), .turn 0 .ok, .turn 0 .ok, .turn 0 (.encoded [2]),
      .turn 0 (.encoded [3])] ++
    deleted_meanwhile ++ [.turn 0 .ok, .turn 0 .ok]

/-- A movie under way, its route deleted before it is stored. -/
private def late_movie : List (Pool.Event ArtifactJob Outcome) :=
  .act .movie_sweep :: List.replicate 8 (.turn 0 .ok) ++ [.turn 0 (.encoded [7])] ++
    deleted_meanwhile ++ [.turn 0 .ok, .turn 0 .ok, .turn 0 (.probed 60), .turn 0 .ok]

/-- The late transcript's row outlives its route, and every pass. -/
theorem late_transcript_stays : ¬ ∀ (env : Env) (w : World), Named w.db → Filed w.db →
    ∀ p : Pool World ArtifactTask, (artifactRules env).system.Reach System.free ⟨w, []⟩ p →
    (∀ t ∈ p.tasks, t.prog.done = true) → ∀ policy rounds, Belongs env (after_pass env policy rounds p.shared) := by
  intro claim
  have run : ((artifactRules plain_env).system.replay ⟨heard_drive, []⟩ late_transcript).any (fun p =>
      p.tasks.all (fun t => t.prog.done) &&
        (after_pass plain_env ⟨0, 0, 0⟩ 0 p.shared).db.subs.rows.any fun s =>
          decide ((after_pass plain_env ⟨0, 0, 0⟩ 0 p.shared).db.routes.get? s.fullname = none)) = true := by
    decide +kernel
  obtain ⟨p, replayed, checked⟩ := (Option.any_eq_true _ _).1 run
  rw [Bool.and_eq_true, List.all_eq_true] at checked
  obtain ⟨s, row, without⟩ := List.any_eq_true.1 checked.2
  have has := (claim plain_env heard_drive heard_drive_named heard_drive_filed p
    (System.reach_of_replay replayed) checked.1 ⟨0, 0, 0⟩ 0).subs s row
  unfold HasRoute at has
  rw [of_decide_eq_true without] at has
  cases has

/-- The late movie has a row, by which a pass finds it. -/
theorem artifacts_belong_late_movie : ∃ p : Pool World ArtifactTask,
    (artifactRules plain_env).system.Reach System.free ⟨heard_drive, []⟩ p ∧
      p.shared.blobs.read (plain_env.path (.movie "d" "t" "qcamera")) = some [7] ∧
      Belongs plain_env (after_pass plain_env ⟨0, 0, 0⟩ 0 p.shared) := by
  have run : ((artifactRules plain_env).system.replay ⟨heard_drive, []⟩ late_movie).any (fun p =>
      decide (p.shared.blobs.rows = [⟨plain_env.path (.movie "d" "t" "qcamera"), [7]⟩] ∧
        p.shared.db.subs.rows = [] ∧ p.shared.db.routes.rows = [] ∧
        p.shared.db.movies.rows.map Movie.id = [(("d|t" : Text), ("qcamera" : Text))])) = true := by
    decide
  obtain ⟨p, replayed, checked⟩ := (Option.any_eq_true _ _).1 run
  obtain ⟨blobs, subs, routes, movies⟩ := of_decide_eq_true checked
  have reached := System.reach_of_replay replayed
  have only : ∀ path, p.shared.blobs.read path ≠ none → path = plain_env.path (.movie "d" "t" "qcamera") := by
    intro path present
    by_contra other
    apply present
    unfold Dir.read Table.get?
    rw [blobs, List.find?_cons_of_neg (by rw [decide_eq_true_eq]; exact fun same => other same.symm)]
    rfl
  have has_row : OrphanAt plain_env p.shared (plain_env.path (.movie "d" "t" "qcamera")) := by
    have member : (("d|t" : Text), ("qcamera" : Text)) ∈ p.shared.db.movies.rows.map Movie.id := by
      rw [movies]
      exact List.mem_singleton.2 rfl
    obtain ⟨m, row, is⟩ := List.mem_map.1 member
    have name : m.fullname = "d|t" := (Prod.ext_iff.1 is).1
    have cam : m.cam = "qcamera" := (Prod.ext_iff.1 is).2
    refine ⟨m, "d", "t", ⟨row, fun has => ?_⟩, ?_, ?_⟩
    · unfold HasRoute Table.get? at has
      rw [routes] at has
      cases has
    · rw [name]
      rfl
    · rw [cam]
  refine ⟨p, reached, ?_, ?_⟩
  · unfold Dir.read Table.get?
    rw [blobs, List.find?_cons_of_pos (by exact decide_eq_true rfl)]
    rfl
  · refine (artifacts_belong_iff plain_env heard_drive heard_drive_named heard_drive_filed p reached
      ⟨0, 0, 0⟩ 0).2 ⟨?_, ?_, ?_⟩
    · rw [subs]
      nofun
    · intro dongle ts cam _ _ present
      rw [only _ present]
      exact .inr has_row
    · intro dongle ts _ present
      have kind := ending_movie plain_env "d" "t" "qcamera"
      rw [← only _ present, ending_subs] at kind
      cases kind

end HomeConnect.Retention
