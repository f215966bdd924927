/-
# Manage.Isolation -- nobody else's requests reach a device's drives

Everything a logged-in user can do to drives goes through `can_manage_device`: delete files,
pin the synced types, make a drive public, delete or rebuild a movie or a transcript, start
a sync.  The check is made once, at the head of a request, and what the request then does it
does by names it makes itself, from the route it was given.

So two things have to hold for a device's drives to be safe from other people's requests:
that the check turns them away, whatever is shared and unshared meanwhile, and that a request
about another device does not get at this one's rows and files by the names it makes.  Both
do (`others_leave_untouched`): in every run in which the users who send requests are
strangers to the device all along, and devices send in their own files only, nothing of the
device's has changed on the server.  The workers are part of the runs: what a request has put on the queue
is pulled and ingested after it.
-/
import HomeConnect.Base.Triples
import HomeConnect.Drives.Poles
import HomeConnect.Drives.Tenants
import HomeConnect.Manage.Delete
import HomeConnect.Sync.Queue

namespace HomeConnect.Manage.Isolation

open HomeConnect.Theory HomeConnect.Storage HomeConnect.Drives HomeConnect.Media HomeConnect.Sync

set_option autoImplicit false

/-! ## The requests -/

/-- The `load_device` and the check that the v1 handlers make themselves. -/
def require_manage (user : Accounts.User) (dongle : Text) : Request Op Unit := do
  let device ← load_known_device dongle
  Request.err_if (!(← can_manage_loaded user device)) (.Forbidden "not authorized for device")

/-- POST /v1/route/:fullname/movie/:cam.  The kick to the encoder is left out. -/
def route_movie_action (user : Accounts.User) (name cam action : Text) : Request Op Unit := do
  let (dongle, ts) ← Request.of_result (split_fullname name)
  require_manage user dongle
  let stem := (Text.strip_suffix ".mp4" cam).getD cam
  Request.err_if (stem ∉ MOVIE_CAMS) (.BadRequest "unknown camera")
  if action = "delete" then disable_movie dongle ts stem
  else if action = "rebuild" then delete_movie dongle ts stem
  else throw (.BadRequest "action must be delete or rebuild")

/-- POST /v1/route/:fullname/subs. -/
def route_subs_action (user : Accounts.User) (name action : Text) : Request Op Unit := do
  let (dongle, ts) ← Request.of_result (split_fullname name)
  require_manage user dongle
  if action = "delete" then disable_subs dongle ts
  else if action = "rebuild" then delete_subs dongle ts
  else throw (.BadRequest "action must be delete or rebuild")

structure SyncQuery where
  full : Option Text := none
  route : Option Text := none
  types : Option Text := none
deriving DecidableEq, Repr

/-- Explicit types before `full` (all of them) before what each drive is set to. -/
def SyncQuery.forced (query : SyncQuery) : Option (List Text) :=
  match (query.types.map Text.trim).filter fun s => decide (s ≠ []) with
  | some list =>
      some (OPTIONAL_TYPES.filter fun t => decide (t ∈ (Text.split ',' list).map Text.trim))
  | none => if query.full.any fun s => decide (s ∈ [("1" : Text), "true", "yes"]) then some OPTIONAL_TYPES else none

/-- POST /v1/devices/:dongle/sync: the scan goes on after the answer. -/
def sync_now (env : Env) (user : Accounts.User) (dongle : Text) (query : SyncQuery) :
    Request Op Unit := do
  let device ← can_manage_device user dongle
  Request.ignore (scan env device { types := query.forced, route := query.route })

/-- The operations of the requests: those on drives, and the public flag. -/
inductive DriveOp : Type → Type 1
  | drives {α : Type} (f : Op α) : DriveOp α
  /-- `UPDATE routes SET is_public = ? WHERE fullname = ?`. -/
  | set_public (name : Text) (is_public : Int) : DriveOp (AppResult Unit)

def DriveOp.exec (env : Env) {β : Type} : DriveOp β → Outcome → World → β × World
  | .drives f, o, w => f.exec env o w
  | .set_public _ _, .failed, w => (.error .Sqlx, w)
  | .set_public name is_public, _, w =>
      let routes := w.db.routes.update (fun r => decide (r.fullname = name))
        (fun r => { r with is_public }) fun _ => rfl
      (.ok (), { w with db.routes := routes })

def on_drives {α : Type} (p : Request Op α) : Request DriveOp α := p.embed DriveOp.drives

/-- POST /v1/route/:fullname/public. -/
def set_route_public (user : Accounts.User) (name : Text) (is_public : Bool) :
    Request DriveOp Unit := do
  let (dongle, _) ← Request.of_result (split_fullname name)
  let _ ← on_drives (can_manage_device user dongle)
  Request.perform (.set_public name (if is_public then 1 else 0))

inductive DriveRequest
  | delete (name : Text) (req : DeleteReq)
  | route_sync (name : Text) (req : RouteSyncReq)
  | route_public (name : Text) (is_public : Bool)
  | movie_action (name cam action : Text)
  | subs_action (name action : Text)
  | sync (dongle : Text) (query : SyncQuery)
deriving DecidableEq, Repr

def DriveRequest.handle (env : Env) (user : Accounts.User) : DriveRequest → Request DriveOp Unit
  | .delete name req => on_drives (Request.ignore (Manage.delete env user name req))
  | .route_sync name req => on_drives (Request.ignore (set_route_sync env user name req))
  | .route_public name is_public => set_route_public user name is_public
  | .movie_action name cam action => on_drives (route_movie_action user name cam action)
  | .subs_action name action => on_drives (route_subs_action user name action)
  | .sync dongle query => on_drives (sync_now env user dongle query)

/-! ## Requests, uploads and workers at once -/

inductive DriveJob
  | request (user : Accounts.User) (req : DriveRequest)
  | upload (auth : Auth) (dongle ts : Text) (seg : Int) (file : Text) (body : Bytes)
  | work
deriving DecidableEq, Repr

def DriveJob.handle (env : Env) : DriveJob → Request DriveOp Unit
  | .request user req => req.handle env user
  | .upload auth dongle ts seg file body =>
      on_drives (Request.ignore (upload_driving env auth dongle ts seg file body))
  | .work => on_drives (Sync.work env)

inductive DriveAct
  | start (job : DriveJob)
  /-- Somebody registers, pairs, shares, is made an admin, or is deleted. -/
  | accounts (db : Accounts.Db)
  | device_write (dongle path : Text) (bytes : Bytes)
  | device_remove (dongle path : Text)
  | set_setting (key value : Text)

abbrev DriveTask := Task DriveJob DriveOp (AppResult Unit)

def DriveAct.act (env : Env) : DriveAct → World → Option (World × List DriveTask)
  | .start job, w => some (w, [⟨job, (job.handle env).run⟩])
  | .accounts db, w => some ({ w with db.accounts := db }, [])
  | .device_write dongle path bytes, w =>
      some ({ w with remote := w.remote.write (dongle, path) bytes }, [])
  | .device_remove dongle path, w =>
      some ({ w with remote := w.remote.remove (dongle, path) }, [])
  | .set_setting key value, w =>
      let settings := put_setting w.db.settings key value
      some ({ w with db.settings := settings }, [])

def driveRules (env : Env) : Pool.Rules World DriveTask DriveAct Outcome :=
  ⟨DriveAct.act env, Task.turn (DriveOp.exec env)⟩

/-! ## Runs apart from a device -/

/-- The registered devices have plain ids, and the users are strangers to the device. -/
structure Apart (outsider : Accounts.User → Prop) (dongle : Text) (w : World) : Prop where
  plain : ∀ d ∈ w.db.accounts.devices.rows, PlainId d.dongle_id
  strangers : ∀ user, outsider user → Stranger w.db user dongle

/-- Who does what: requests come from the outsiders, uploads from other devices. -/
def FromOthers (outsider : Accounts.User → Prop) (dongle : Text) : DriveAct → Prop
  | .start (.request user _) => outsider user
  | .start (.upload auth ..) => ∀ d, auth.device = some d → PlainId d.dongle_id ∧ d.dongle_id ≠ dongle
  | _ => True

def Foreign (outsider : Accounts.User → Prop) (dongle : Text) (p : Pool World DriveTask)
    (e : Pool.Event DriveAct Outcome) : Prop :=
  Apart outsider dongle p.shared ∧
    match e with
    | .act a => FromOthers outsider dongle a
    | .turn _ _ => True

/-- No file of the device's is waiting to be pulled. -/
def Unqueued (dongle : Text) (q : SyncQueue) : Prop :=
  ∀ it ∈ q.pending, PlainId it.dongle ∧ it.dongle ≠ dongle

/-- The operation is about another device. -/
def Elsewhere (dongle : Text) {β : Type} : Op β → Prop
  | .write s => ∃ d, PlainId d ∧ d ≠ dongle ∧ s.about d
  | .queue f => ∀ q, Unqueued dongle q → Unqueued dongle (f q).2
  | _ => True

def DriveOp.Elsewhere (dongle : Text) {β : Type} : DriveOp β → Prop
  | .drives f => Isolation.Elsewhere dongle f
  | .set_public name _ => ∃ d ts, PlainId d ∧ d ≠ dongle ∧ name = fullname d ts

/-- Nothing of the device's changes, and nothing of its is queued. -/
structure Leaves (env : Env) (dongle : Text) (w w' : World) : Prop where
  untouched : Untouched env dongle w w'
  unqueued : Unqueued dongle w.sync_queue → Unqueued dongle w'.sync_queue

variable (env : Env) (outsider : Accounts.User → Prop) (dongle : Text)

/-- What the operations on drives keep to, as long as the run is apart from the device. -/
def apart : Guarantee World Op Outcome where
  exec := Op.exec env
  rely := Leaves env dongle
  ok f _ := Elsewhere dongle f
  legit _ _ w := Apart outsider dongle w

def drive_apart : Guarantee World DriveOp Outcome where
  exec := DriveOp.exec env
  rely := Leaves env dongle
  ok f _ := f.Elsewhere dongle
  legit _ _ w := Apart outsider dongle w

variable {env outsider dongle}

theorem Leaves.refl (w : World) : Leaves env dongle w w := ⟨.refl w, fun unqueued => unqueued⟩

theorem Leaves.trans {w w' w'' : World} (first : Leaves env dongle w w')
    (second : Leaves env dongle w' w'') : Leaves env dongle w w'' :=
  ⟨first.untouched.trans second.untouched, fun unqueued => second.unqueued (first.unqueued unqueued)⟩

theorem Leaves.exec (own : PlainId dongle) {β : Type} {f : Op β} (elsewhere : Elsewhere dongle f)
    (o : Outcome) (w : World) : Leaves env dongle w (f.exec env o w).2 := by
  cases f with
  | queue g => exact ⟨.of_same rfl rfl rfl rfl rfl rfl, elsewhere w.sync_queue⟩
  | write s =>
      obtain ⟨d, plain, other, about⟩ := elsewhere
      cases done : s.exec env w with
      | none =>
          have same : (Op.exec env (.write s) o w).2 = w := by cases o <;> simp only [Op.exec, done]
          rw [same]
          exact .refl w
      | some w' =>
          have left : Leaves env dongle w w' :=
            ⟨.exec plain own other about done, (Write.framed done).sync_queue ▸ fun unqueued => unqueued⟩
          cases o with
          | failed => exact .refl w
          | _ => simpa only [Op.exec, done] using left
  | read q => cases o <;> exact .refl w
  | encode inputs => cases o <;> exact .refl w
  | probe => cases o <;> exact .refl w

theorem apart_lawful (own : PlainId dongle) : (apart env outsider dongle).Lawful where
  refl := .refl
  trans := .trans
  keeps elsewhere _ := .exec own elsewhere _ _

/-- The public flag of another device's drive. -/
theorem Leaves.exec_drives (own : PlainId dongle) {β : Type} {f : DriveOp β}
    (elsewhere : f.Elsewhere dongle) (o : Outcome) (w : World) :
    Leaves env dongle w (f.exec env o w).2 := by
  cases f with
  | drives f => exact .exec own elsewhere o w
  | set_public name is_public =>
      obtain ⟨d, ts, plain, other, rfl⟩ := elsewhere
      have same (ts' : Text) (r : Route) (is : r.fullname = fullname dongle ts') :
          decide (r.fullname = fullname d ts) = false :=
        decide_eq_false fun of => other (plain.eq_of_fullname own (of.symm.trans is))
      cases o with
      | failed => exact .refl w
      | _ => exact ⟨.only_routes fun ts' => get?_update_other _ (same ts'), fun unqueued => unqueued⟩

theorem drive_apart_lawful (own : PlainId dongle) : (drive_apart env outsider dongle).Lawful where
  refl := .refl
  trans := .trans
  keeps elsewhere _ := .exec_drives own elsewhere _ _

theorem extends_by_drives :
    (apart env outsider dongle).ExtendsBy (drive_apart env outsider dongle) DriveOp.drives :=
  ⟨fun _ _ _ => rfl, fun kept => kept, fun ok => ok, fun legit => legit⟩

/-! ## Triples -/

section Triples

variable {α : Type} {w : World}

/-- A value is returned with its postcondition, and every operation is about another device. -/
abbrev Clear (env : Env) (outsider : Accounts.User → Prop) (dongle : Text) (Q : α → World → Prop)
    (p : Request Op α) (w : World) : Prop :=
  Request.Gives (apart env outsider dongle) Q p w

theorem clear_writes (own : PlainId dongle) {p : Request Op α} {d : Text} (plain : PlainId d)
    (other : d ≠ dongle) (writes : Writes (Write.about d) p) :
    Clear env outsider dongle (fun _ _ => True) p w := by
  refine Request.Gives.of_uses (apart_lawful own) writes fun f w' _ allowed => ?_
  cases f with
  | write s => exact ⟨d, plain, other, allowed.2 s rfl⟩
  | queue g => exact allowed.1.elim
  | _ => trivial

/-- What is read meets what holds wherever the run may be. -/
theorem clear_select {q : World → α} {Q : α → World → Prop}
    (post : ∀ w' w'', Apart outsider dongle w' → Q (q w') w'') :
    Clear env outsider dongle Q (select q) w := by
  refine Request.Gives.perform (fun _ _ => trivial) fun w' o a w'' _ legit answered _ => ?_
  cases o with
  | failed => cases answered
  | _ => cases answered; exact post w' w'' legit

/-- What a stranger finds of the device is not theirs, and they are no admin. -/
theorem clear_load_device (d : Text) :
    Clear env outsider dongle (fun found _ => ∀ device, found = some device → device.dongle_id = d ∧
      PlainId d ∧ (d = dongle → ∀ user, outsider user →
        user.is_admin = 0 ∧ device.owner_id ≠ some user.id)) (load_device d) w := by
  refine clear_select fun w' w'' run device found => ?_
  obtain ⟨member, rfl⟩ := Table.get?_eq_some.1 found
  refine ⟨rfl, run.plain device member, ?_⟩
  rintro rfl user out
  obtain ⟨admin, not_owner, _⟩ := run.strangers user out
  exact ⟨admin, fun owner => not_owner ⟨device, found, owner⟩⟩

/-- A stranger is not let through. -/
theorem clear_can_manage_loaded {user : Accounts.User} (out : outsider user) {device : Accounts.Device}
    (not_theirs : device.dongle_id = dongle → user.is_admin = 0 ∧ device.owner_id ≠ some user.id) :
    Clear env outsider dongle (fun manages _ => manages = true → device.dongle_id ≠ dongle)
      (can_manage_loaded user device) w := by
  rw [can_manage_loaded]
  split
  · next theirs =>
      refine Request.Gives.pure fun _ _ _ same => ?_
      obtain ⟨admin, owner⟩ := not_theirs same
      exact theirs.elim (fun is => is admin) owner
  · refine clear_select fun w' w'' run shared same => ?_
    subst same
    exact (run.strangers user out).2.2 shared

/-- Who is let through is after another device. -/
theorem clear_can_manage_device (own : PlainId dongle) {user : Accounts.User} (out : outsider user)
    (d : Text) : Clear env outsider dongle
      (fun device _ => device.dongle_id = d ∧ PlainId d ∧ d ≠ dongle) (can_manage_device user d) w := by
  refine Request.Gives.bind (apart_lawful own) (clear_load_device d) fun found w₁ _ known => ?_
  cases found with
  | none => exact Request.Gives.throw _
  | some device =>
      obtain ⟨is, plain, not_theirs⟩ := known device rfl
      subst is
      refine Request.Gives.bind (apart_lawful own)
        (clear_can_manage_loaded out fun same => not_theirs same user out) fun manages w₂ _ other => ?_
      refine Request.Gives.bind (apart_lawful own) Request.Gives.err_if fun _ w₃ _ passed => ?_
      exact Request.Gives.pure fun _ _ => ⟨rfl, plain, other (by simpa using passed)⟩

/-- The handlers' own check comes to the same. -/
theorem require_manage_eq (user : Accounts.User) (d : Text) :
    require_manage user d = can_manage_device user d >>= fun _ => pure () := by
  rw [require_manage, can_manage_device, load_known_device, bind_assoc, bind_assoc]
  congr 1
  funext found
  cases found with
  | none => rfl
  | some device =>
      simp only [bind_assoc, pure_bind]
      congr 1
      funext manages
      exact (bind_pure (Request.err_if _ _)).symm

theorem clear_require_manage (own : PlainId dongle) {user : Accounts.User} (out : outsider user)
    (d : Text) : Clear env outsider dongle (fun _ _ => PlainId d ∧ d ≠ dongle) (require_manage user d) w := by
  rw [require_manage_eq]
  exact Request.Gives.bind (apart_lawful own) (clear_can_manage_device own out d) fun _ _ _ known =>
    Request.Gives.pure fun _ _ => known.2

/-- The parts of a route's name. -/
theorem clear_split (name : Text) : Clear env outsider dongle
    (fun parts _ => name = fullname parts.1 parts.2) (Request.of_result (split_fullname name)) w :=
  Request.Gives.of_result fun _ _ split _ => (fullname_of_split split).1

end Triples

/-! ## The requests -/

section Requests

variable {α : Type} {w : World} {d ts : Text}

theorem about_disable_movie (cam : Text) : Writes (Write.about d) (disable_movie d ts cam) :=
  .bind (.attempt rfl) fun _ => .attempt ⟨ts, rfl⟩

theorem about_delete_movie (cam : Text) : Writes (Write.about d) (delete_movie d ts cam) :=
  .bind (.attempt rfl) fun _ => .attempt ⟨ts, rfl⟩

theorem about_disable_subs : Writes (Write.about d) (disable_subs d ts) :=
  .bind (.attempt rfl) fun _ => .attempt ⟨ts, rfl⟩

theorem about_delete_subs : Writes (Write.about d) (delete_subs d ts) :=
  .bind (.attempt rfl) fun _ => .attempt ⟨ts, rfl⟩

theorem about_delete_type (env : Env) (seg : Int) (t : Text) :
    Writes (Write.about d) (delete_type env d ts seg t) := by
  rw [delete_type]
  split
  · exact .pure _
  · refine .bind (writes_total fun file _ => ?_) fun _ => .bind (.attempt rfl) fun _ => .bind ?_
      fun _ => .pure _
    · refine .bind (.unwrap_or (.select _) _) fun size => ?_
      split
      · exact .pure _
      · exact .bind (.attempt rfl) fun _ => .pure _
    · exact .ite (.attempt rfl) (.pure _)

theorem about_remove_from_server (env : Env) (segs : List Int) (types : List Text) :
    Writes (Write.about d) (remove_from_server env (fullname d ts) d ts segs types) := by
  refine .bind ?_ fun _ => .bind ?_ fun _ => .bind ?_ fun _ => .bind ?_ fun _ => .pure _
  · exact writes_total fun seg _ => writes_total fun t _ => about_delete_type env seg t
  · exact .bind (.select _) fun _ => .ite (.pure _) (.execute ⟨ts, rfl⟩)
  · exact Request.Uses.forM fun t _ => Writes.ite (about_delete_movie t) (.pure _)
  · exact .bind (writes_effective_route_types env _) fun _ => .ignore (.execute ⟨ts, rfl⟩)

theorem about_delete_on_device {device : Accounts.Device} (files : List (Int × Text)) :
    Writes (Write.about device.dongle_id) (delete_on_device device ts files) := by
  refine .bind (.err_if _ _) fun _ => .bind (.err_if _ _) fun _ => .bind ?_ fun _ => .pure _
  exact writes_total fun path _ => .bind (.select _) fun _ =>
    .ite (.bind (.execute trivial) fun _ => .pure _) (.pure _)

theorem clear_device_part (own : PlainId dongle) (plain : PlainId d) (other : d ≠ dongle)
    (req : DeleteReq) (segs : List Int) :
    Clear env outsider dongle (fun _ _ => True) (device_part req d ts segs) w := by
  rw [device_part]
  split
  · refine Request.Gives.bind (apart_lawful own) (clear_load_device d) fun found w₁ _ known => ?_
    cases found with
    | none => exact Request.Gives.throw _
    | some device =>
        obtain ⟨rfl, _⟩ := known device rfl
        exact clear_writes own plain other (about_delete_on_device _)
  · exact Request.Gives.pure fun _ _ => trivial

theorem clear_delete (own : PlainId dongle) {user : Accounts.User} (out : outsider user) (name : Text)
    (req : DeleteReq) : Clear env outsider dongle (fun _ _ => True) (Manage.delete env user name req) w := by
  refine Request.Gives.bind (apart_lawful own) (clear_split name) fun parts w₁ _ is => ?_
  obtain ⟨d, ts⟩ := parts
  refine Request.Gives.bind (apart_lawful own) (clear_can_manage_device own out d) fun _ w₂ _ known => ?_
  obtain ⟨_, plain, other⟩ := known
  refine Request.Gives.bind (apart_lawful own) (R := fun _ _ => True)
    (clear_select fun _ _ _ => trivial) fun segs w₃ _ _ => ?_
  refine Request.Gives.bind (apart_lawful own) Request.Gives.err_if fun _ w₄ _ _ => ?_
  refine Request.Gives.bind (apart_lawful own) (clear_device_part own plain other req segs)
    fun _ w₅ _ _ => ?_
  refine Request.Gives.bind (apart_lawful own) (R := fun _ _ => True) ?_ fun _ w₆ _ _ =>
    Request.Gives.pure fun _ _ => trivial
  cases is
  exact clear_writes own plain other (.ite (about_remove_from_server env segs req.types) (.pure _))

theorem clear_set_route_sync (own : PlainId dongle) {user : Accounts.User} (out : outsider user)
    (name : Text) (req : RouteSyncReq) :
    Clear env outsider dongle (fun _ _ => True) (set_route_sync env user name req) w := by
  refine Request.Gives.bind (apart_lawful own) (clear_split name) fun parts w₁ _ is => ?_
  obtain ⟨d, ts⟩ := parts
  refine Request.Gives.bind (apart_lawful own) (clear_can_manage_device own out d) fun _ w₂ _ known => ?_
  obtain ⟨_, plain, other⟩ := known
  cases is
  refine clear_writes own plain other (.bind ?_ fun _ => .bind (writes_get_route_override _) fun _ =>
    .bind (writes_get_sync_types env) fun _ => .pure _)
  rw [apply_route_sync]
  split
  · exact .execute ⟨ts, rfl⟩
  · split
    · exact .execute ⟨ts, rfl⟩
    · exact .pure ()

theorem clear_route_movie_action (own : PlainId dongle) {user : Accounts.User} (out : outsider user)
    (name cam action : Text) :
    Clear env outsider dongle (fun _ _ => True) (route_movie_action user name cam action) w := by
  refine Request.Gives.bind (apart_lawful own) (clear_split name) fun parts w₁ _ is => ?_
  obtain ⟨d, ts⟩ := parts
  refine Request.Gives.bind (apart_lawful own) (clear_require_manage own out d) fun _ w₂ _ known => ?_
  refine clear_writes own known.1 known.2 (.bind (.err_if _ _) fun _ => ?_)
  exact .ite (about_disable_movie _) (.ite (about_delete_movie _) (.throw _))

theorem clear_route_subs_action (own : PlainId dongle) {user : Accounts.User} (out : outsider user)
    (name action : Text) :
    Clear env outsider dongle (fun _ _ => True) (route_subs_action user name action) w := by
  refine Request.Gives.bind (apart_lawful own) (clear_split name) fun parts w₁ _ is => ?_
  obtain ⟨d, ts⟩ := parts
  refine Request.Gives.bind (apart_lawful own) (clear_require_manage own out d) fun _ w₂ _ known => ?_
  exact clear_writes own known.1 known.2 (.ite about_disable_subs (.ite about_delete_subs (.throw _)))

end Requests

/-! ## The queue -/

section Queue

variable {w : World}

theorem Unqueued.push {q : SyncQueue} (unqueued : Unqueued dongle q) {it : QueueItem}
    (other : PlainId it.dongle ∧ it.dongle ≠ dongle) : Unqueued dongle (q.push it) := by
  rw [SyncQueue.push]
  split
  · exact unqueued
  · intro it' member
    rcases List.mem_append.1 member with old | new
    · exact unqueued it' old
    · rw [List.mem_singleton.1 new]
      exact other

theorem Unqueued.enqueue {q : SyncQueue} (unqueued : Unqueued dongle q) {items : List QueueItem}
    (others : ∀ it ∈ items, PlainId it.dongle ∧ it.dongle ≠ dongle) :
    Unqueued dongle (q.enqueue items).2 := by
  rw [SyncQueue.enqueue_snd]
  induction items generalizing q with
  | nil => exact unqueued
  | cons it items ih =>
      rw [List.foldl_cons]
      exact ih (unqueued.push (others it List.mem_cons_self)) fun it' member =>
        others it' (List.mem_cons_of_mem _ member)

theorem Unqueued.next_item {q : SyncQueue} (unqueued : Unqueued dongle q) :
    Unqueued dongle (next_item q).2 ∧
      ∀ it, (next_item q).1 = some it → PlainId it.dongle ∧ it.dongle ≠ dongle := by
  cases pending : q.pending with
  | nil =>
      have empty : Sync.next_item q = (none, q) := by simp [Sync.next_item, SyncQueue.next, pending]
      rw [empty]
      refine ⟨unqueued, fun it none => ?_⟩
      cases none
  | cons it rest =>
      have head : it ∈ q.pending := by simp [pending]
      have taken : (Sync.next_item q).1 = some it ∧ (Sync.next_item q).2.pending = rest := by
        simp [Sync.next_item, SyncQueue.next, pending]
      refine ⟨fun it' member => ?_, fun it' is => ?_⟩
      · rw [taken.2] at member
        exact unqueued it' (by simp [pending, member])
      · rw [taken.1] at is
        cases is
        exact unqueued it head

theorem dongle_of_scan_line {device : Accounts.Device} {opts : SyncOpts} {st : ScanState} {line : Text}
    {it : QueueItem} (takes : scan_line device opts st line = some it) :
    it.dongle = device.dongle_id := by
  unfold scan_line at takes
  repeat' split at takes
  all_goals first
    | cases takes; rfl
    | cases takes

/-- A scan of another device puts its files on the queue. -/
theorem clear_scan (own : PlainId dongle) (device : Accounts.Device) (plain : PlainId device.dongle_id)
    (other : device.dongle_id ≠ dongle) (opts : SyncOpts) :
    Clear env outsider dongle (fun _ _ => True) (scan env device opts) w := by
  refine Request.Gives.bind (apart_lawful own) Request.Gives.err_if fun _ w₁ _ _ => ?_
  refine Request.Gives.bind (apart_lawful own) (R := fun _ _ => True)
    (clear_select fun _ _ _ => trivial) fun listing w₂ _ _ => ?_
  refine Request.Gives.bind (apart_lawful own) (R := fun _ _ => True)
    (clear_select fun _ _ _ => trivial) fun reg w₃ _ _ => ?_
  refine Request.Gives.bind (apart_lawful own) (R := fun _ _ => True)
    (clear_writes own plain other ?_) fun types w₄ _ _ => ?_
  · rw [scan_types]
    split
    · exact .pure _
    · exact .bind (writes_get_sync_types env) fun _ => .bind (.select _) fun _ => .pure _
  · refine Guarantee.Ensures.op (fun _ _ q unqueued => ?_) fun _ _ _ _ _ _ _ _ => trivial
    refine unqueued.enqueue fun it member => ?_
    obtain ⟨line, _, takes⟩ := List.mem_filterMap.1 member
    rw [dongle_of_scan_line takes]
    exact ⟨plain, other⟩

theorem about_of_sync_write {it : QueueItem} {s : Write} (writes : SyncWrite it s) : s.about it.dongle := by
  rcases writes with ingests | rfl
  · exact Write.about_of_ingests ingests
  · trivial

/-- A worker takes another device's file, if it takes one. -/
theorem clear_work (own : PlainId dongle) (unqueued : Unqueued dongle w.sync_queue) :
    Clear env outsider dongle (fun _ _ => True) (work env) w := by
  refine Request.Gives.bind (apart_lawful own)
    (R := fun next _ => ∀ it, next = some it → PlainId it.dongle ∧ it.dongle ≠ dongle) ?_ ?_
  · refine Guarantee.Ensures.op (fun _ _ q none_queued => none_queued.next_item.1) fun w₁ o kept _ => ?_
    intro w₂ _ next same
    cases same
    exact (kept.unqueued unqueued).next_item.2
  · intro next w₁ _ others
    cases next with
    | none => exact Request.Gives.pure fun _ _ => trivial
    | some it =>
        obtain ⟨plain, other⟩ := others it rfl
        refine Request.Gives.bind (apart_lawful own) (clear_writes own plain other
          ((writes_process_item env it).mono fun _ => about_of_sync_write)) fun _ w₂ _ _ => ?_
        exact Guarantee.Ensures.op (fun _ _ q none_queued => none_queued) fun _ _ _ _ _ _ _ _ => trivial

theorem clear_sync_now (own : PlainId dongle) {user : Accounts.User} (out : outsider user) (d : Text)
    (query : SyncQuery) : Clear env outsider dongle (fun _ _ => True) (sync_now env user d query) w := by
  refine Request.Gives.bind (apart_lawful own) (clear_can_manage_device own out d) fun device w₁ _ known => ?_
  obtain ⟨rfl, plain, other⟩ := known
  exact Request.Gives.ignore (clear_scan own device plain other _)

/-- A device's own upload is about its own drives. -/
theorem clear_upload_driving (own : PlainId dongle) {auth : Auth}
    (others : ∀ d, auth.device = some d → PlainId d.dongle_id ∧ d.dongle_id ≠ dongle)
    (d ts : Text) (seg : Int) (file : Text) (body : Bytes) :
    Clear env outsider dongle (fun _ _ => True) (upload_driving env auth d ts seg file body) w := by
  cases sent : require_device auth d with
  | error e =>
      rw [upload_driving, sent]
      exact Request.Gives.throw e
  | ok _ =>
      obtain ⟨device, found, is⟩ : ∃ device, auth.device = some device ∧ device.dongle_id = d := by
        unfold require_device at sent
        split at sent
        · next device found =>
            split at sent
            · next same => exact ⟨device, found, same.1⟩
            · cases sent
        · cases sent
      obtain ⟨plain, other⟩ := others device found
      subst is
      exact clear_writes own plain other
        ((writes_upload_driving env _ ts seg file auth body).mono fun _ => Write.about_of_ingests)

end Queue

/-! ## Runs -/

section Runs

variable {w : World}

/-- The public flag is set on the route that was checked. -/
theorem clear_set_route_public (own : PlainId dongle) {user : Accounts.User} (out : outsider user)
    (name : Text) (is_public : Bool) :
    Request.Gives (drive_apart env outsider dongle) (fun _ _ => True)
      (set_route_public user name is_public) w := by
  refine Request.Gives.bind (drive_apart_lawful own) (Request.Gives.of_result
    (Q := fun parts _ => name = fullname parts.1 parts.2)
    fun _ _ split _ => (fullname_of_split split).1) fun parts w₁ _ is => ?_
  obtain ⟨d, ts⟩ := parts
  cases is
  refine Request.Gives.bind (drive_apart_lawful own)
    (Request.Gives.embed extends_by_drives (clear_can_manage_device own out d)) fun _ w₂ _ known => ?_
  exact Request.Gives.perform (fun _ _ => ⟨d, ts, known.2.1, known.2.2, rfl⟩) fun _ _ _ _ _ _ _ _ => trivial

theorem clear_request (own : PlainId dongle) {user : Accounts.User} (out : outsider user)
    (req : DriveRequest) : Request.Gives (drive_apart env outsider dongle) (fun _ _ => True)
      (req.handle env user) w := by
  cases req with
  | delete name req => exact .embed extends_by_drives (.ignore (clear_delete own out name req))
  | route_sync name req => exact .embed extends_by_drives (.ignore (clear_set_route_sync own out name req))
  | route_public name is_public => exact clear_set_route_public own out name is_public
  | movie_action name cam action =>
      exact .embed extends_by_drives (clear_route_movie_action own out name cam action)
  | subs_action name action => exact .embed extends_by_drives (clear_route_subs_action own out name action)
  | sync d query => exact .embed extends_by_drives (clear_sync_now own out d query)

/-- Every job that others start keeps to the guarantee. -/
theorem clear_job (own : PlainId dongle) (unqueued : Unqueued dongle w.sync_queue) {job : DriveJob}
    (others : FromOthers outsider dongle (.start job)) :
    Request.Gives (drive_apart env outsider dongle) (fun _ _ => True) (job.handle env) w := by
  cases job with
  | request user req => exact clear_request own others req
  | upload auth d ts seg file body =>
      exact .embed extends_by_drives (.ignore (clear_upload_driving own others d ts seg file body))
  | work => exact .embed extends_by_drives (clear_work own unqueued)

/-- **Isolation.**  Take a device none of whose files is queued, and any run of user requests
about drives, uploads and workers, interleaved with whatever happens to the accounts, in which
the users who send the requests may at no time manage the device, and the uploads come from
other devices.  Then nothing of the device's has changed on the server: no row of its drives,
no movie, no transcript, no file, and nothing of its is queued.  What is found at a device's
address is anything at any time (`device_write`, `device_remove`), so the addresses need not
be the devices' own. -/
theorem others_leave_untouched (env : Env) (outsider : Accounts.User → Prop) (dongle : Text)
    (own : PlainId dongle) (w : World) (unqueued : Unqueued dongle w.sync_queue)
    (p : Pool World DriveTask)
    (reached : (driveRules env).system.Reach (Foreign outsider dongle) ⟨w, []⟩ p) :
    Untouched env dongle w p.shared ∧ Unqueued dongle p.shared.sync_queue := by
  have run := Guarantee.Reach.ensures (G := drive_apart env outsider dongle) (fun _ _ _ => True)
    (drive_apart_lawful own) reached (fun q e foreign => ?_) fun q a w' ts before foreign acted => ?_
  · exact ⟨run.1.untouched, run.1.unqueued unqueued⟩
  · cases e with
    | act a => trivial
    | turn i o => exact fun _ _ _ _ _ _ => foreign.1
  · cases a with
    | start job =>
        cases acted
        refine ⟨.refl _, fun t member => ?_⟩
        rw [List.mem_singleton.1 member]
        exact Guarantee.Ensures.weaken (clear_job own (before.unqueued unqueued) foreign.2)
          fun _ _ _ => trivial
    | accounts db =>
        cases acted
        exact ⟨⟨.of_same rfl rfl rfl rfl rfl rfl, fun queued => queued⟩,
          fun t member => (List.not_mem_nil member).elim⟩
    | _ =>
        cases acted
        exact ⟨⟨.of_same rfl rfl rfl rfl rfl rfl, fun queued => queued⟩,
          fun t member => (List.not_mem_nil member).elim⟩

end Runs

/-! ## Poles -/

private def neighbour : Accounts.User := { id := 2, identity := "n", username := "n" }

private def clip_of (dongle : Text) : BlobPath :=
  plain_env.path (.segment dongle "t" 0 "qcamera.ts")

private def segment_of (dongle : Text) : Segment where
  canonical_name := canonical dongle "t" 0
  canonical_route_name := fullname dongle "t"
  number := 0
  created_at := 0
  qcam_url := "u"

/-- Two devices with a drive each; the second is the neighbour's. -/
private def two_tenants : World :=
  { one_device { dongle_id := "d", owner_id := some 1 } with
    db.accounts.devices := (Table.single { dongle_id := "d", owner_id := some 1 }).insertIfAbsent
      { dongle_id := "e", owner_id := some 2 }
    db.segments := (Table.single (segment_of "d")).insertIfAbsent (segment_of "e")
    blobs := Dir.write (Dir.write Table.empty (clip_of "d") [1]) (clip_of "e") [2] }

/-- A check for `Foreign`: the neighbour sends everything. -/
private def sent_by_neighbour (p : Pool World DriveTask) (e : Pool.Event DriveAct Outcome) : Bool :=
  let db := p.shared.db.accounts
  (db.devices.rows.all fun d => d.dongle_id.all Char.isAlphanum) &&
    ((db.devices.get? "d").all fun d => decide (d.owner_id ≠ some 2)) &&
    (db.authorized_users.get? (2, "d")).isNone &&
    match e with
    | .act (.start (.request user _)) => decide (user = neighbour)
    | .act _ => false
    | .turn _ _ => true

private theorem foreign_of_sent (p : Pool World DriveTask) (e : Pool.Event DriveAct Outcome)
    (sent : sent_by_neighbour p e = true) : Foreign (fun user => user = neighbour) "d" p e := by
  simp only [sent_by_neighbour, Bool.and_eq_true] at sent
  obtain ⟨⟨⟨ids, owner⟩, share⟩, by_whom⟩ := sent
  refine ⟨⟨fun d row c member => ?_, ?_⟩, ?_⟩
  · exact List.all_eq_true.1 (List.all_eq_true.1 ids d row) c member
  · rintro user rfl
    refine ⟨rfl, ?_, ?_⟩
    · rintro ⟨d, found, is⟩
      rw [found] at owner
      exact of_decide_eq_true owner is
    · rw [Shared, Option.not_isSome_iff_eq_none]
      exact Option.isNone_iff_eq_none.1 share
  · cases e with
    | turn i o => trivial
    | act a =>
        cases a with
        | start job =>
            cases job with
            | request user req =>
                have is : user = neighbour := of_decide_eq_true by_whom
                exact is
            | upload => cases by_whom
            | work => cases by_whom
        | _ => cases by_whom

private def deleting (dongle : Text) : Pool.Event DriveAct Outcome :=
  .act (.start (.request neighbour (.delete (fullname dongle "t") { types := ["qcamera"] })))

/-- The neighbour tries to delete both drives' videos, and loses their own. -/
theorem others_leave_untouched_neighbour : ∃ p : Pool World DriveTask,
    (driveRules plain_env).system.Reach (Foreign (fun user => user = neighbour) "d")
      ⟨two_tenants, []⟩ p ∧ Untouched plain_env "d" two_tenants p.shared ∧
      p.shared.blobs.read (clip_of "d") = some [1] ∧ p.shared.blobs.read (clip_of "e") = none := by
  have run : (((driveRules plain_env).system.guard fun p e => sent_by_neighbour p e = true).replay
      ⟨two_tenants, []⟩ ([deleting "d", deleting "e"] ++ List.replicate 2 (.turn 0 .ok) ++
        List.replicate 5 (.turn 1 .ok))).any (fun p =>
      p.shared.blobs.read (clip_of "d") = some [1] ∧ p.shared.blobs.read (clip_of "e") = none) = true := by
    decide +kernel
  obtain ⟨p, replayed, checked⟩ := (Option.any_eq_true _ _).1 run
  obtain ⟨kept, gone⟩ := of_decide_eq_true checked
  have reached := (System.reach_of_replay_guard replayed).mono foreign_of_sent
  refine ⟨p, reached, ?_, kept, gone⟩
  exact (others_leave_untouched _ _ "d" (by decide) _ (fun it member => (List.not_mem_nil member).elim)
    p reached).1

end HomeConnect.Manage.Isolation
