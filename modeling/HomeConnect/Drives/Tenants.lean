/-
# Drives.Tenants -- what belongs to a device, and what writes leave it alone

Devices share one server: one table of each kind, one blob store, one transcode directory.
What belongs to a device is told by names only, each of which begins with the device's id
and a separator.  Ids are made of hex digits, so no name of one device is a name of another
(`name_apart` and the lemmas after it).

`Write.about` says that a write concerns one device's drives, and `Untouched` that nothing
of a device's has changed; a write about one device leaves every other untouched
(`Untouched.exec`).
-/
import HomeConnect.Drives.Footprint

namespace HomeConnect.Drives

open HomeConnect.Theory HomeConnect.Storage

set_option autoImplicit false

/-! ## Ids and names -/

/-- An id none of whose characters separates the parts of a name or is replaced in a path. -/
def PlainId (dongle : Text) : Prop := ∀ c ∈ dongle, c.isAlphanum

instance (dongle : Text) : Decidable (PlainId dongle) := inferInstanceAs (Decidable (∀ c ∈ dongle, _))

section Names

variable {d e : Text}

theorem PlainId.no_bar (plain : PlainId d) : '|' ∉ d := fun member => by
  have is := plain _ member
  revert is
  decide

theorem PlainId.no_underscore (plain : PlainId d) : '_' ∉ d := fun member => by
  have is := plain _ member
  revert is
  decide

theorem PlainId.sanitized (plain : PlainId d) : sanitize d = d := by
  refine (List.map_congr_left fun c member => if_neg ?_).trans (List.map_id d)
  rintro (rfl | rfl | rfl) <;> exact absurd (plain _ member) (by decide)

/-- Names that begin with different ids differ. -/
theorem name_apart {c : Char} (clean : c ∉ d) (clean' : c ∉ e) {rest rest' : Text}
    (same : d ++ c :: rest = e ++ c :: rest') : d = e := by
  have parts := Text.split_once_append clean rest
  have parts' := Text.split_once_append clean' rest'
  have split := congrArg (Text.split_once c) same
  rw [parts, parts'] at split
  exact (Prod.ext_iff.1 (Option.some.inj split)).1

variable (plain : PlainId d) (plain' : PlainId e)

include plain plain'

theorem PlainId.eq_of_fullname {ts ts' : Text} (same : fullname d ts = fullname e ts') : d = e := by
  simp only [fullname, List.append_assoc] at same
  exact name_apart plain.no_bar plain'.no_bar same

theorem PlainId.eq_of_canonical {ts ts' : Text} {m n : Int}
    (same : canonical d ts m = canonical e ts' n) : d = e := by
  simp only [canonical, List.append_assoc] at same
  exact name_apart plain.no_bar plain'.no_bar same

theorem PlainId.eq_of_ts_file {n n' : TsName} (of : n.dongle = d) (of' : n'.dongle = e)
    (same : n.file = n'.file) : d = e := by
  subst of of'
  simp only [TsName.file, List.append_assoc] at same
  exact name_apart plain.no_underscore plain'.no_underscore same

theorem PlainId.eq_of_path {env : Env} {n n' : BlobName} (of : n.route.1 = d) (of' : n'.route.1 = e)
    (same : env.path n = env.path n') : d = e := by
  have names : sanitize n.key = sanitize n'.key := congrArg BlobPath.name same
  have parts : ∀ n : BlobName, PlainId n.route.1 → ∃ rest, sanitize n.key = n.route.1 ++ '_' :: rest := by
    intro n plain
    have head : ∃ rest, n.key = n.route.1 ++ '_' :: rest := by
      cases n <;> exact ⟨_, by
        simp only [BlobName.key, BlobName.route, blob_key, movie_key, subs_key, List.append_assoc]; rfl⟩
    obtain ⟨rest, is⟩ := head
    refine ⟨sanitize rest, ?_⟩
    conv_rhs => rw [← plain.sanitized]
    rw [is]
    simp [sanitize]
  subst of of'
  obtain ⟨rest, is⟩ := parts n plain
  obtain ⟨rest', is'⟩ := parts n' plain'
  rw [is, is'] at names
  exact name_apart plain.no_underscore plain'.no_underscore names

end Names

/-! ## Writes about a device's drives -/

/-- The write concerns drives of this device only.  Counters of a device's own row and the
files it keeps itself are no part of its drives here; statements that go over whole tables are
about no device. -/
def Write.about (dongle : Text) : Write → Prop
  | .blob_put name _ | .blob_delete name => name.route.1 = dongle
  | .ts_write name _ | .ts_remove name => name.dongle = dongle
  | .ts_rename tmp out => tmp.dongle = dongle ∧ out.dongle = dongle
  | .rm .. | .add_server_storage .. | .set_last_gps .. => True
  | .insert_route d _ | .insert_segment d _ _ | .upsert_segment d _ _ _ | .set_url d _ _ _ _ => d = dongle
  | .set_aggregates name _ | .set_meta name _ | .set_sync_types name _ | .delete_route name
  | .record_movie name .. | .delete_movie name _ | .disable_movie name _
  | .record_subs name .. | .delete_subs name | .disable_subs name => ∃ ts, name = fullname dongle ts
  | .delete_segments _ | .delete_enabled_movies => False

/-- Nothing of the device's drives has changed on the server: its rows and its files. -/
structure Untouched (env : Env) (dongle : Text) (w w' : World) : Prop where
  routes : ∀ ts, w'.db.routes.get? (fullname dongle ts) = w.db.routes.get? (fullname dongle ts)
  segments : ∀ ts seg,
    w'.db.segments.get? (canonical dongle ts seg) = w.db.segments.get? (canonical dongle ts seg)
  movies : ∀ ts cam,
    w'.db.movies.get? (fullname dongle ts, cam) = w.db.movies.get? (fullname dongle ts, cam)
  subs : ∀ ts, w'.db.subs.get? (fullname dongle ts) = w.db.subs.get? (fullname dongle ts)
  blobs : ∀ name : BlobName, name.route.1 = dongle →
    w'.blobs.read (env.path name) = w.blobs.read (env.path name)
  transcode : ∀ name : TsName, name.dongle = dongle →
    w'.transcode.read name.file = w.transcode.read name.file

namespace Untouched

variable {env : Env} {dongle : Text} {w w' w'' : World}

theorem refl (w : World) : Untouched env dongle w w :=
  ⟨fun _ => rfl, fun _ _ => rfl, fun _ _ => rfl, fun _ => rfl, fun _ _ => rfl, fun _ _ => rfl⟩

theorem trans (first : Untouched env dongle w w') (second : Untouched env dongle w' w'') :
    Untouched env dongle w w'' where
  routes ts := (second.routes ts).trans (first.routes ts)
  segments ts seg := (second.segments ts seg).trans (first.segments ts seg)
  movies ts cam := (second.movies ts cam).trans (first.movies ts cam)
  subs ts := (second.subs ts).trans (first.subs ts)
  blobs name of := (second.blobs name of).trans (first.blobs name of)
  transcode name of := (second.transcode name of).trans (first.transcode name of)

/-- Nothing has changed but what belongs to nobody. -/
theorem of_same (routes : w'.db.routes = w.db.routes) (segments : w'.db.segments = w.db.segments)
    (movies : w'.db.movies = w.db.movies) (subs : w'.db.subs = w.db.subs) (blobs : w'.blobs = w.blobs)
    (transcode : w'.transcode = w.transcode) : Untouched env dongle w w' := by
  constructor <;> intros
  · rw [routes]
  · rw [segments]
  · rw [movies]
  · rw [subs]
  · rw [blobs]
  · rw [transcode]

/-! One part of the world changes, and the device's share of it does not. -/

theorem only_routes {routes} (kept : ∀ ts, routes.get? (fullname dongle ts) = w.db.routes.get? (fullname dongle ts)) :
    Untouched env dongle w { w with db.routes := routes } :=
  ⟨kept, fun _ _ => rfl, fun _ _ => rfl, fun _ => rfl, fun _ _ => rfl, fun _ _ => rfl⟩

theorem only_segments {segments} (kept : ∀ ts seg,
    segments.get? (canonical dongle ts seg) = w.db.segments.get? (canonical dongle ts seg)) :
    Untouched env dongle w { w with db.segments := segments } :=
  ⟨fun _ => rfl, kept, fun _ _ => rfl, fun _ => rfl, fun _ _ => rfl, fun _ _ => rfl⟩

theorem only_movies {movies} (kept : ∀ ts cam,
    movies.get? (fullname dongle ts, cam) = w.db.movies.get? (fullname dongle ts, cam)) :
    Untouched env dongle w { w with db.movies := movies } :=
  ⟨fun _ => rfl, fun _ _ => rfl, kept, fun _ => rfl, fun _ _ => rfl, fun _ _ => rfl⟩

theorem only_subs {subs} (kept : ∀ ts, subs.get? (fullname dongle ts) = w.db.subs.get? (fullname dongle ts)) :
    Untouched env dongle w { w with db.subs := subs } :=
  ⟨fun _ => rfl, fun _ _ => rfl, fun _ _ => rfl, kept, fun _ _ => rfl, fun _ _ => rfl⟩

theorem only_blobs {blobs made} (kept : ∀ name : BlobName, name.route.1 = dongle →
    Dir.read blobs (env.path name) = w.blobs.read (env.path name)) :
    Untouched env dongle w { w with blobs, made } :=
  ⟨fun _ => rfl, fun _ _ => rfl, fun _ _ => rfl, fun _ => rfl, kept, fun _ _ => rfl⟩

theorem only_transcode {transcode transcoded} (kept : ∀ name : TsName, name.dongle = dongle →
    Dir.read transcode name.file = w.transcode.read name.file) :
    Untouched env dongle w { w with transcode, transcoded } :=
  ⟨fun _ => rfl, fun _ _ => rfl, fun _ _ => rfl, fun _ => rfl, fun _ _ => rfl, kept⟩

end Untouched

/-! ## Writes about another device -/

section Tables

variable {α κ : Type} [DecidableEq κ] {key : α → κ}

/-- An update of other rows. -/
theorem get?_update_other (t : Table α key) {p : α → Bool} {f : α → α} {same} {k : κ}
    (other : ∀ a, key a = k → p a = false) : (t.update p f same).get? k = t.get? k := by
  rw [Table.get?_update]
  cases found : t.get? k with
  | none => rfl
  | some a =>
      have missed := other a (Table.key_of_get? found)
      simp [missed]

theorem get?_delete_other (t : Table α key) {p : α → Bool} {k : κ}
    (other : ∀ a, key a = k → p a = false) : (t.delete p).get? k = t.get? k := by
  rw [Table.get?_delete]
  cases found : t.get? k with
  | none => rfl
  | some a =>
      have missed := other a (Table.key_of_get? found)
      simp [missed]

theorem get?_insert_other (t : Table α key) {a : α} {k : κ} (other : k ≠ key a) :
    (t.insertIfAbsent a).get? k = t.get? k := by
  rw [Table.get?_insertIfAbsent, if_neg other]

theorem get?_upsert_other (t : Table α key) {a : α} {merge : α → α} {same} {k : κ} (other : k ≠ key a) :
    (t.upsert a merge same).get? k = t.get? k := by
  rw [Table.get?_upsert, if_neg other]

end Tables

section Exec

variable {env : Env} {d e : Text} {w w' : World} {s : Write}

open Untouched in
/-- **Frame.**  A write about one device leaves another's drives untouched. -/
theorem Untouched.exec (plain : PlainId d) (plain' : PlainId e) (other : d ≠ e) (about : s.about d)
    (done : s.exec env w = some w') : Untouched env e w w' := by
  have framed := Write.framed done
  have route (ts ts' : Text) : fullname e ts ≠ fullname d ts' := fun same =>
    other (plain.eq_of_fullname plain' same.symm)
  have segment (ts ts' : Text) (n n' : Int) : canonical e ts n ≠ canonical d ts' n' := fun same =>
    other (plain.eq_of_canonical plain' same.symm)
  cases s with
  | blob_put name bytes =>
      cases done
      refine only_blobs fun name' of => ?_
      rw [Dir.read_write, if_neg fun same => other (plain.eq_of_path plain' about of same.symm)]
  | blob_delete name =>
      cases done
      refine only_blobs fun name' of => ?_
      rw [Dir.read_remove, if_neg fun same => other (plain.eq_of_path plain' about of same.symm)]
  | ts_write name bytes =>
      cases done
      refine only_transcode fun name' of => ?_
      rw [Dir.read_write, if_neg fun same => other (plain.eq_of_ts_file plain' about of same.symm)]
  | ts_rename tmp out =>
      obtain ⟨bytes, _, rfl⟩ := Option.map_eq_some_iff.1 done
      refine only_transcode fun name' of => ?_
      rw [Dir.read_write, if_neg fun same => other (plain.eq_of_ts_file plain' about.2 of same.symm),
        Dir.read_remove, if_neg fun same => other (plain.eq_of_ts_file plain' about.1 of same.symm)]
  | ts_remove name =>
      cases done
      refine only_transcode fun name' of => ?_
      rw [Dir.read_remove, if_neg fun same => other (plain.eq_of_ts_file plain' about of same.symm)]
  | rm dongle path => cases done; exact of_same rfl rfl rfl rfl rfl rfl
  | add_server_storage dongle len => cases done; exact of_same rfl rfl rfl rfl rfl rfl
  | set_last_gps dongle lat lng time => cases done; exact of_same rfl rfl rfl rfl rfl rfl
  | insert_route dongle ts =>
      cases about
      simp only [Write.exec, Option.ite_none_left_eq_some] at done
      obtain ⟨_, done⟩ := done
      cases done
      exact only_routes fun ts' => get?_insert_other _ (route ts' ts)
  | insert_segment dongle ts seg =>
      cases about
      simp only [Write.exec, Option.ite_none_left_eq_some] at done
      obtain ⟨_, done⟩ := done
      cases done
      exact only_segments fun ts' n => get?_insert_other _ (segment ts' ts n seg)
  | upsert_segment dongle ts seg data =>
      cases about
      simp only [Write.exec, Option.ite_none_left_eq_some] at done
      obtain ⟨_, done⟩ := done
      cases done
      exact only_segments fun ts' n => get?_upsert_other _ (segment ts' ts n seg)
  | set_url dongle ts seg col url =>
      cases about
      cases done
      exact only_segments fun ts' n =>
        get?_update_other _ fun r is => decide_eq_false (is ▸ segment ts' ts n seg)
  | set_aggregates name aggregates =>
      obtain ⟨ts, rfl⟩ := about
      cases done
      exact only_routes fun ts' =>
        get?_update_other _ fun r is => decide_eq_false (is ▸ route ts' ts)
  | set_meta name info =>
      obtain ⟨ts, rfl⟩ := about
      cases done
      exact only_routes fun ts' =>
        get?_update_other _ fun r is => decide_eq_false (is ▸ route ts' ts)
  | set_sync_types name types =>
      obtain ⟨ts, rfl⟩ := about
      cases done
      exact only_routes fun ts' =>
        get?_update_other _ fun r is => decide_eq_false (is ▸ route ts' ts)
  | delete_segments name => exact about.elim
  | delete_route name =>
      obtain ⟨ts, rfl⟩ := about
      simp only [Write.exec, Option.ite_none_left_eq_some] at done
      obtain ⟨_, done⟩ := done
      cases done
      exact only_routes fun ts' =>
        get?_delete_other _ fun r is => decide_eq_false (is ▸ route ts' ts)
  | record_movie name cam seg_count bytes duration =>
      obtain ⟨ts, rfl⟩ := about
      cases done
      exact only_movies fun ts' cam' =>
        get?_upsert_other _ fun same => route ts' ts (Prod.ext_iff.1 same).1
  | delete_movie name cam =>
      obtain ⟨ts, rfl⟩ := about
      cases done
      exact only_movies fun ts' cam' => get?_delete_other _ fun m is =>
        decide_eq_false fun same => route ts' ts (Prod.ext_iff.1 (is.symm.trans same)).1
  | disable_movie name cam =>
      obtain ⟨ts, rfl⟩ := about
      cases done
      exact only_movies fun ts' cam' =>
        get?_upsert_other _ fun same => route ts' ts (Prod.ext_iff.1 same).1
  | delete_enabled_movies => exact about.elim
  | record_subs name seg_count cues bytes =>
      obtain ⟨ts, rfl⟩ := about
      cases done
      exact only_subs fun ts' => get?_upsert_other _ (route ts' ts)
  | delete_subs name =>
      obtain ⟨ts, rfl⟩ := about
      cases done
      exact only_subs fun ts' =>
        get?_delete_other _ fun r is => decide_eq_false (is ▸ route ts' ts)
  | disable_subs name =>
      obtain ⟨ts, rfl⟩ := about
      cases done
      exact only_subs fun ts' => get?_upsert_other _ (route ts' ts)

end Exec

/-- What ingesting a file of a device writes is about the device. -/
theorem Write.about_of_ingests {s : Write} {dongle ts file : Text} {seg : Int}
    (ingests : s.ingests dongle ts seg file) : s.about dongle := by
  rcases ingests with registers | ⟨f, bytes, rfl, _⟩
  · cases s with
    | blob_put name bytes =>
        obtain ⟨f, _, rfl⟩ := registers
        rfl
    | add_server_storage | set_last_gps => trivial
    | insert_route | insert_segment | upsert_segment | set_url => exact registers.1
    | set_aggregates | set_meta => exact ⟨ts, registers⟩
    | _ => exact registers.elim
  · rfl

end HomeConnect.Drives
