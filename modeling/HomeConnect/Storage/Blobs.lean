/-
# Storage.Blobs -- the writers and readers of one blob

`BlobStore::put` writes a temporary file beside the blob and renames it into place;
`ingest`'s `store` refuses a key that is there and puts otherwise; `get` reads the blob.  Here
they are taken apart into the steps that other calls on the same key can come between: a
write is byte by byte, and so is a read.

The temporary file is the key's, not the call's, so two puts at once write one file (and with
the extension `part` it is the blob itself); and what `store` found may have changed when its
put begins.  When no put begins while another is under
way, nor a `store`'s after another `store` has put its file in place (`undisturbed`), at most
one `store` succeeds, no later one changes the blob, and every `get` returns what one put was
given (`blob_writes_atomic`).  Otherwise not (`two_uploads_succeed`).
-/
import HomeConnect.Base.Request
import HomeConnect.Storage.Names
import HomeConnect.Theory.Pool
import HomeConnect.Theory.Publish

namespace HomeConnect.Storage.Blobs

open HomeConnect.Theory HomeConnect.Theory.Publish

set_option autoImplicit false

/-! ## The calls -/

/-- The blob's file in its shard directory. -/
def path (key : Text) : Text := sanitize key

/-- `path.with_extension("part")`. -/
def tmp (key : Text) : Text := Text.with_extension (path key) "part"

/-- An operation succeeds, or fails with a message. -/
inductive Outcome
  | ok
  | fault (m : Text)
deriving DecidableEq, Repr

abbrev IoResult (α : Type) := Except Text α

def not_found : Text := "No such file or directory (os error 2)"

/-- `BlobStore::put`, by what it does next. -/
inductive Put
  /-- `create_dir_all(parent)` -/
  | create_dir
  /-- `fs::write` opens the temporary file, emptying it. -/
  | open_tmp
  /-- `fs::write` has the file `x` open and has written `n` bytes. -/
  | write (x n : Nat)
  /-- `fs::write` has closed the file `x`. -/
  | rename (x : Nat)
  | ret (r : IoResult Unit)
deriving DecidableEq

def Put.step (key : Text) (body : Bytes) : Put → Outcome → Files Text UInt8 →
    Option (Files Text UInt8 × Put)
  | .ret _, _, _ => none
  | _, .fault m, f => some (f, .ret (.error m))
  | .create_dir, .ok, f => some (f, .open_tmp)
  | .open_tmp, .ok, f => some ((f.create (tmp key)).1, .write (f.create (tmp key)).2 0)
  | .write x n, .ok, f =>
      match body[n]? with
      | some b => some (f.write x n b, .write x (n + 1))
      | none => some (f, .rename x)
  | .rename _, .ok, f =>
      match f.rename (tmp key) (path key) with
      | some g => some (g, .ret (.ok ()))
      | none => some (f, .ret (.error not_found))

/-- `ingest::store`, by what it does next. -/
inductive Store
  /-- `blobs.exists(key)` -/
  | look
  | put (p : Put)
  /-- Cumulative storage accounting, whose errors are discarded. -/
  | account
  /-- `Ok` is `StatusCode::CREATED`. -/
  | ret (r : AppResult Unit)
deriving DecidableEq

/-- What `store` makes of where its put is. -/
def Store.of_put : Put → Store
  | .ret (.ok ()) => .account
  | .ret (.error m) => .ret (.error (.Other ("blob write: " ++ m)))
  | p => .put p

def Store.step (key : Text) (body : Bytes) : Store → Outcome → Files Text UInt8 →
    Option (Files Text UInt8 × Store)
  | .look, .ok, f =>
      some (f, if (f.names (path key)).isSome then .ret (.error (.Forbidden "file already uploaded"))
        else .put .create_dir)
  -- `try_exists(..).unwrap_or(false)`
  | .look, .fault _, f => some (f, .put .create_dir)
  | .put p, o, f => (p.step key body o f).map fun r => (r.1, .of_put r.2)
  | .account, _, f => some (f, .ret (.ok ()))
  | .ret _, _, _ => none

/-- `BlobStore::get`, by what it does next. -/
inductive Get
  | open_path
  /-- `fs::read` has the file `x` open and has read so much. -/
  | read (x : Nat) (got : Bytes)
  | ret (r : IoResult Bytes)
deriving DecidableEq

def Get.step (key : Text) : Get → Outcome → Files Text UInt8 → Option Get
  | .ret _, _, _ => none
  | _, .fault m, _ => some (.ret (.error m))
  | .open_path, .ok, f =>
      match f.names (path key) with
      | some x => some (.read x [])
      | none => some (.ret (.error not_found))
  | .read x got, .ok, f =>
      match (f.bytes x)[got.length]? with
      | some b => some (.read x (got ++ [b]))
      | none => some (.ret (.ok got))

/-! ## Calls on one key -/

/-- A call on the key, with the bytes it was passed. -/
inductive Call
  | put (body : Bytes) (p : Put)
  | store (body : Bytes) (s : Store)
  | get (g : Get)
deriving DecidableEq

def Call.turn (key : Text) : Call → Outcome → Files Text UInt8 → Option (Files Text UInt8 × Call)
  | .put body p, o, f => (p.step key body o f).map fun r => (r.1, .put body r.2)
  | .store body s, o, f => (s.step key body o f).map fun r => (r.1, .store body r.2)
  | .get g, o, f => (g.step key o f).map fun g' => (f, .get g')

/-- A call begins. -/
inductive Begin
  | put (body : Bytes)
  | store (body : Bytes)
  | get
deriving DecidableEq, Repr

def Begin.call : Begin → Call
  | .put body => .put body .create_dir
  | .store body => .store body .look
  | .get => .get .open_path

abbrev State := Pool (Files Text UInt8) Call

abbrev Event := Pool.Event Begin Outcome

def rules (key : Text) : Pool.Rules (Files Text UInt8) Call Begin Outcome where
  act := fun b f => some (f, [b.call])
  turn := Call.turn key

def system (key : Text) : System State Event := (rules key).system

/-- Nothing is stored under the key and no call has begun. -/
def start : State := ⟨Files.empty, []⟩

/-! ## What a call has in hand -/

/-- The file a put has open or will rename, and what it has put there. -/
def Put.work (body : Bytes) : Put → Work UInt8
  | .write x n => some (x, body.take n)
  | .rename x => some (x, body)
  | _ => none

namespace Call

def work : Call → Work UInt8
  | put body p => p.work body
  | store body (.put p) => p.work body
  | _ => none

/-- The bytes of a call whose put has put its file in place. -/
def stored : Call → Option Bytes
  | put body (.ret (.ok _)) => some body
  | store body .account => some body
  | store body (.ret (.ok _)) => some body
  | _ => none

def is_store : Call → Bool
  | store _ _ => true
  | _ => false

/-- A `store` that has put its file in place or is about to. -/
def claims (c : Call) : Bool := c.is_store && (c.work.isSome || c.stored.isSome)

/-- The call opens the temporary file next. -/
def opens : Call → Bool
  | put _ .open_tmp => true
  | store _ (.put .open_tmp) => true
  | _ => false

/-- A `store` that returned `Ok`. -/
def succeeded : Call → Bool
  | store _ (.ret (.ok _)) => true
  | _ => false

end Call

/-- Whoever opens the temporary file finds no other put under way; and when it is a `store`,
no other `store` has put its file in place. -/
def undisturbed (key : Text) (p : State) : Event → Prop
  | .turn i .ok => ∀ c, p.tasks[i]? = some c → c.opens = true →
      path key ≠ tmp key ∧ (∀ m ∈ p.tasks, m.work = none) ∧
        (c.is_store = true → ∀ m ∈ p.tasks, m.is_store = true → m.stored = none)
  | _ => True

/-- The bytes of a put that has put them in place. -/
def Stored (p : State) (bytes : Bytes) : Prop := ∃ c ∈ p.tasks, c.stored = some bytes

/-- Blob writes are atomic and uploads never overwrite. -/
structure Atomic (ok : State → Event → Prop) (key : Text) (p : State) : Prop where
  /-- At most one `store` call succeeds. -/
  once : p.tasks.countP Call.succeeded ≤ 1
  /-- Once a `store` succeeded, no step of a `store` changes the blob. -/
  kept : ∀ i o c p', p.tasks[i]? = some c → c.is_store = true →
    (∃ m ∈ p.tasks, m.succeeded = true) → ok p (.turn i o) →
    (system key).step p (.turn i o) = some p' →
    p'.shared.read (path key) = p.shared.read (path key)
  /-- Every `get` returns the bytes passed to one put. -/
  whole : ∀ bytes, .get (.ret (.ok bytes)) ∈ p.tasks → Stored p bytes

/-! ## What a turn does -/

section Turn

variable {key : Text} {body : Bytes} {o : Outcome} {f g : Files Text UInt8}

@[simp] theorem work_of_put (body : Bytes) (p : Put) : (Call.store body (.of_put p)).work = p.work body := by
  cases p with
  | ret r => cases r <;> rfl
  | _ => rfl

/-- The steps of a put: nothing to do with files, the opening, or work on the file it has. -/
theorem Put.step_cases {p p' : Put} (stepped : p.step key body o f = some (g, p')) :
    (g = f ∧ p.work body = none ∧ p'.work body = none ∧ ∀ u, p' ≠ .ret (.ok u)) ∨
    (p = .open_tmp ∧ o = .ok ∧ g = (f.create (tmp key)).1 ∧ p' = .write (f.create (tmp key)).2 0) ∨
    (∃ x w, p.work body = some (x, w) ∧
      Effect (tmp key) (path key) (fun w => w = body ∧ p' = .ret (.ok ())) f (p.work body) g
        (p'.work body)) := by
  cases o with
  | fault m =>
      cases p with
      | ret r => cases stepped
      | create_dir =>
          cases stepped
          exact .inl ⟨rfl, rfl, rfl, nofun⟩
      | open_tmp =>
          cases stepped
          exact .inl ⟨rfl, rfl, rfl, nofun⟩
      | write x n =>
          cases stepped
          exact .inr (.inr ⟨x, _, rfl, .left _ _ _⟩)
      | rename x =>
          cases stepped
          exact .inr (.inr ⟨x, _, rfl, .left _ _ _⟩)
  | ok =>
      cases p with
      | ret r => cases stepped
      | create_dir =>
          cases stepped
          exact .inl ⟨rfl, rfl, rfl, nofun⟩
      | open_tmp =>
          cases stepped
          exact .inr (.inl ⟨rfl, rfl, rfl, rfl⟩)
      | write x n =>
          refine .inr (.inr ⟨x, _, rfl, ?_⟩)
          simp only [Put.step] at stepped
          split at stepped
          · rename_i b next
            cases stepped
            obtain ⟨bound, rfl⟩ := List.getElem?_eq_some_iff.1 next
            have length : (body.take n).length = n := by
              rw [List.length_take]
              omega
            have more : body.take (n + 1) = body.take n ++ [body[n]] := by simp
            have wrote : Effect (tmp key) (path key)
                (fun w => w = body ∧ Put.write x (n + 1) = .ret (.ok ())) f (some (x, body.take n))
                (f.write x (body.take n).length body[n]) (some (x, body.take n ++ [body[n]])) :=
              .wrote f x (body.take n) body[n]
            rw [length, ← more] at wrote
            exact wrote
          · rename_i past
            cases stepped
            have all : body.take n = body := List.take_of_length_le (List.getElem?_eq_none_iff.1 past)
            show Effect _ _ _ f (some (x, body.take n)) f (some (x, body))
            rw [all]
            exact .paused f x body
      | rename x =>
          refine .inr (.inr ⟨x, _, rfl, ?_⟩)
          simp only [Put.step] at stepped
          split at stepped
          · rename_i g' renamed
            cases stepped
            refine Effect.renamed f g x body ?_ renamed
            exact ⟨rfl, rfl⟩
          · cases stepped
            exact .left f x body

/-- The steps of any call, seen through its work. -/
theorem Call.turn_cases {c c' : Call} (turned : c.turn key o f = some (g, c')) :
    (g = f ∧ c.work = none ∧ c'.work = none ∧ c'.stored = c.stored) ∨
    (c.opens = true ∧ o = .ok ∧ c.stored = none ∧ c'.stored = none ∧
      Effect (tmp key) (path key) (fun w => c'.stored = some w) f c.work g c'.work) ∨
    (∃ x w, c.work = some (x, w) ∧ c.stored = none ∧
      Effect (tmp key) (path key) (fun w => c'.stored = some w) f c.work g c'.work) := by
  cases c with
  | get q =>
      obtain ⟨q', _, is⟩ := Option.map_eq_some_iff.1 turned
      cases is
      exact .inl ⟨rfl, rfl, rfl, rfl⟩
  | put body p =>
      obtain ⟨⟨g', p'⟩, stepped, is⟩ := Option.map_eq_some_iff.1 turned
      cases is
      rcases Put.step_cases stepped with ⟨rfl, idle, idle', unfinished⟩ | ⟨rfl, rfl, rfl, rfl⟩ |
        ⟨x, w, busy, effect⟩
      · refine .inl ⟨rfl, idle, idle', ?_⟩
        have unstored : ∀ q : Put, (∀ u, q ≠ .ret (.ok u)) → (Call.put body q).stored = none := by
          intro q other
          cases q with
          | ret r =>
              cases r with
              | ok u => exact (other u rfl).elim
              | error m => rfl
          | _ => rfl
        rw [unstored p' unfinished, unstored p fun u is => by rw [is] at stepped; cases stepped]
      · exact .inr (.inl ⟨rfl, rfl, rfl, rfl, .opened f⟩)
      · refine .inr (.inr ⟨x, w, busy, ?_, effect.mono ?_⟩)
        · cases p with
          | ret r => cases stepped
          | _ => rfl
        · rintro w' ⟨rfl, rfl⟩
          rfl
  | store body s =>
      obtain ⟨⟨g', s'⟩, stepped, is⟩ := Option.map_eq_some_iff.1 turned
      cases is
      cases s with
      | look =>
          cases o with
          | ok =>
              cases stepped
              refine .inl ⟨rfl, rfl, ?_, ?_⟩
              · split <;> rfl
              · split <;> rfl
          | fault m =>
              cases stepped
              exact .inl ⟨rfl, rfl, rfl, rfl⟩
      | account =>
          cases o <;> cases stepped <;> exact .inl ⟨rfl, rfl, rfl, rfl⟩
      | ret r => cases stepped
      | put p =>
          obtain ⟨⟨g', p'⟩, stepped', is⟩ := Option.map_eq_some_iff.1 stepped
          cases is
          rcases Put.step_cases stepped' with ⟨rfl, idle, idle', unfinished⟩ | ⟨rfl, rfl, rfl, rfl⟩ |
            ⟨x, w, busy, effect⟩
          · refine .inl ⟨rfl, idle, ?_, ?_⟩
            · rw [work_of_put]
              exact idle'
            · cases p' with
              | ret r =>
                  cases r with
                  | ok u => exact (unfinished u rfl).elim
                  | error m => rfl
              | _ => rfl
          · exact .inr (.inl ⟨rfl, rfl, rfl, rfl, .opened f⟩)
          · refine .inr (.inr ⟨x, w, busy, rfl, ?_⟩)
            rw [work_of_put]
            refine effect.mono ?_
            rintro w' ⟨rfl, rfl⟩
            rfl

theorem Call.is_store_turn {c c' : Call} (turned : c.turn key o f = some (g, c')) :
    c'.is_store = c.is_store := by
  cases c with
  | get q =>
      obtain ⟨q', _, is⟩ := Option.map_eq_some_iff.1 turned
      cases is
      rfl
  | put body p =>
      obtain ⟨r, _, is⟩ := Option.map_eq_some_iff.1 turned
      cases is
      rfl
  | store body s =>
      obtain ⟨r, _, is⟩ := Option.map_eq_some_iff.1 turned
      cases is
      rfl

theorem Call.get_of_turn {c : Call} {q' : Get} (turned : c.turn key o f = some (g, .get q')) :
    ∃ q, c = .get q ∧ q.step key o f = some q' ∧ g = f := by
  cases c with
  | get q =>
      obtain ⟨q'', stepped, is⟩ := Option.map_eq_some_iff.1 turned
      cases is
      exact ⟨q, rfl, stepped, rfl⟩
  | put body p =>
      obtain ⟨r, _, is⟩ := Option.map_eq_some_iff.1 turned
      cases is
  | store body s =>
      obtain ⟨r, _, is⟩ := Option.map_eq_some_iff.1 turned
      cases is

/-- What has been put in place stays so. -/
theorem Call.stored_turn {c c' : Call} (turned : c.turn key o f = some (g, c')) {bytes : Bytes}
    (stored : c.stored = some bytes) : c'.stored = some bytes := by
  rcases Call.turn_cases turned with ⟨_, _, _, same⟩ | ⟨_, _, none, _⟩ | ⟨_, _, _, none, _⟩
  · rw [same, stored]
  · cases none.symm.trans stored
  · cases none.symm.trans stored

end Turn

/-! ## What holds at every state -/

/-- A reader has read the beginning of a file that no one changes any more. -/
def Get.Reads (key : Text) (stored : Bytes → Prop) (f : Files Text UInt8) : Get → Prop
  | .open_path => True
  | .read x got => Settled (tmp key) stored f x ∧ got <+: f.bytes x
  | .ret (.ok bytes) => stored bytes
  | .ret (.error _) => True

theorem Get.Reads.mono {key : Text} {stored stored' : Bytes → Prop} {f g : Files Text UInt8} {q : Get}
    (reads : q.Reads key stored f) (grows : ∀ bytes, stored bytes → stored' bytes)
    (kept : ∀ y, Settled (tmp key) stored f y → Settled (tmp key) stored' g y ∧ g.bytes y = f.bytes y) :
    q.Reads key stored' g := by
  cases q with
  | open_path => trivial
  | read x got =>
      obtain ⟨settled, same⟩ := kept x reads.1
      refine ⟨settled, ?_⟩
      rw [same]
      exact reads.2
  | ret r =>
      cases r with
      | ok bytes => exact grows bytes reads
      | error m => trivial

theorem Get.Reads.step {key : Text} {stored : Bytes → Prop} {f : Files Text UInt8} {q q' : Get}
    {o : Outcome} (reads : q.Reads key stored f)
    (placed : ∀ x, f.names (path key) = some x → Settled (tmp key) stored f x)
    (stepped : q.step key o f = some q') : q'.Reads key stored f := by
  cases q with
  | open_path =>
      cases o with
      | fault m =>
          cases stepped
          trivial
      | ok =>
          simp only [Get.step] at stepped
          split at stepped
          · rename_i x found
            cases stepped
            exact ⟨placed x found, List.nil_prefix⟩
          · cases stepped
            trivial
  | read x got =>
      cases o with
      | fault m =>
          cases stepped
          trivial
      | ok =>
          obtain ⟨settled, rest, more⟩ := reads
          simp only [Get.step] at stepped
          split at stepped
          · rename_i b next
            cases stepped
            rw [← more, List.getElem?_append_right (Nat.le_refl _), Nat.sub_self] at next
            refine ⟨settled, ?_⟩
            rw [← more]
            cases rest with
            | nil => cases next
            | cons c rest =>
                cases next
                exact ⟨rest, by rw [List.append_assoc]; rfl⟩
          · rename_i past
            cases stepped
            rw [← more, List.getElem?_append_right (Nat.le_refl _), Nat.sub_self] at past
            cases rest with
            | nil =>
                show stored got
                rw [← List.append_nil got, more]
                exact settled.complete
            | cons c rest => cases past
  | ret r => cases o <;> cases stepped

/-- Invariant of the runs in which nobody disturbs a put. -/
structure Sound (key : Text) (p : State) : Prop where
  one : p.tasks.countP (fun c => c.work.isSome) ≤ 1
  stores : p.tasks.countP Call.claims ≤ 1
  working : ∀ c ∈ p.tasks, ∀ x w, c.work = some (x, w) → path key ≠ tmp key ∧
    Owns (tmp key) (path key) p.shared x w ∧ p.shared.names (tmp key) = some x
  placed : ∀ x, p.shared.names (path key) = some x → Settled (tmp key) (Stored p) p.shared x
  reads : ∀ q, .get q ∈ p.tasks → q.Reads key (Stored p) p.shared

section Run

variable {key : Text}

theorem sound_start : Sound key start where
  one := Nat.zero_le _
  stores := Nat.zero_le _
  working := fun _ no => (List.not_mem_nil no).elim
  placed := nofun
  reads := fun _ no => (List.not_mem_nil no).elim

theorem Sound.act {p : State} (sound : Sound key p) (b : Begin) :
    Sound key ⟨p.shared, p.tasks ++ [b.call]⟩ := by
  have idle : b.call.work = none := by cases b <;> rfl
  have claimless : b.call.claims = false := by cases b <;> rfl
  have grows : ∀ bytes, Stored p bytes → Stored ⟨p.shared, p.tasks ++ [b.call]⟩ bytes := by
    rintro bytes ⟨c, member, stored⟩
    exact ⟨c, List.mem_append_left _ member, stored⟩
  have kept : ∀ y, Settled (tmp key) (Stored p) p.shared y →
      Settled (tmp key) (Stored ⟨p.shared, p.tasks ++ [b.call]⟩) p.shared y ∧
        p.shared.bytes y = p.shared.bytes y :=
    fun y settled => ⟨⟨settled.bound, settled.tmp, grows _ settled.complete⟩, rfl⟩
  refine ⟨?_, ?_, ?_, fun x found => (kept x (sound.placed x found)).1, ?_⟩
  · rw [List.countP_append, List.countP_singleton, idle]
    exact sound.one
  · rw [List.countP_append, List.countP_singleton, claimless]
    exact sound.stores
  · intro c member x w work
    rcases List.mem_append.1 member with old | new
    · exact sound.working c old x w work
    · rw [List.mem_singleton.1 new, idle] at work
      cases work
  · intro q member
    rcases List.mem_append.1 member with old | new
    · exact (sound.reads q old).mono grows kept
    · cases b with
      | get =>
          cases List.mem_singleton.1 new
          trivial
      | put body => cases List.mem_singleton.1 new
      | store body => cases List.mem_singleton.1 new

theorem Sound.turn {p : State} (sound : Sound key p) {i : Nat} {o : Outcome} {c c' : Call}
    {g : Files Text UInt8} (admitted : undisturbed key p (.turn i o)) (found : p.tasks[i]? = some c)
    (turned : c.turn key o p.shared = some (g, c')) : Sound key ⟨g, p.tasks.set i c'⟩ := by
  have listed : c ∈ p.tasks := List.mem_of_getElem? found
  have grows : ∀ bytes, Stored p bytes → Stored ⟨g, p.tasks.set i c'⟩ bytes := by
    rintro bytes ⟨m, member, stored⟩
    rcases Pool.mem_set_of_mem c' found member with rfl | other
    · exact ⟨c', Pool.mem_set_self c' found, Call.stored_turn turned stored⟩
    · exact ⟨m, other, stored⟩
  -- either nothing happens to the files, or the call is the only one at work afterwards
  have moves : (g = p.shared ∧ c.work = none ∧ c'.work = none ∧ c'.stored = c.stored) ∨
      (path key ≠ tmp key ∧ (∀ j m, p.tasks[j]? = some m → j ≠ i → m.work = none) ∧
        (c.work = none → c.is_store = true → ∀ m ∈ p.tasks, m.claims = false) ∧
        Effect (tmp key) (path key) (fun w => c'.stored = some w) p.shared c.work g c'.work) := by
    rcases Call.turn_cases turned with quiet | ⟨opens, rfl, _, _, effect⟩ | ⟨x, w, busy, _, effect⟩
    · exact .inl quiet
    · obtain ⟨ne, idle, first⟩ := admitted c found opens
      refine .inr ⟨ne, fun j m other _ => idle m (List.mem_of_getElem? other), ?_, effect⟩
      intro _ is_store m member
      unfold Call.claims
      rw [idle m member]
      cases store : m.is_store with
      | false => rfl
      | true => rw [first is_store m member store]; rfl
    · refine .inr ⟨(sound.working c listed x w busy).1, ?_, ?_, effect⟩
      · intro j m other ne
        have idle := Pool.not_of_countP sound.one found (by rw [busy]; rfl) other ne
        exact Option.isNone_iff_eq_none.1 (Option.isSome_eq_false_iff.1 idle)
      · intro none
        cases none.symm.trans busy
  have kept : ∀ y, Settled (tmp key) (Stored p) p.shared y →
      Settled (tmp key) (Stored ⟨g, p.tasks.set i c'⟩) g y ∧ g.bytes y = p.shared.bytes y := by
    intro y settled
    rcases moves with ⟨rfl, _⟩ | ⟨ne, _, _, effect⟩
    · exact ⟨⟨settled.bound, settled.tmp, grows _ settled.complete⟩, rfl⟩
    · have apart : ∀ x w, c.work = some (x, w) → y ≠ x := by
        rintro x w busy rfl
        exact settled.tmp (sound.working c listed _ w busy).2.2
      obtain ⟨same, bound, tmp⟩ := effect.settled ne settled.bound settled.tmp apart
      exact ⟨⟨bound, tmp, grows _ (same ▸ settled.complete)⟩, same⟩
  have reads : ∀ q, .get q ∈ p.tasks.set i c' → q.Reads key (Stored ⟨g, p.tasks.set i c'⟩) g := by
    intro q member
    rcases Pool.mem_set_cases member with own | ⟨j, _, other⟩
    · rw [← own] at turned
      obtain ⟨q₀, rfl, stepped, _⟩ := Call.get_of_turn turned
      exact ((sound.reads q₀ listed).step sound.placed stepped).mono grows kept
    · exact (sound.reads q (List.mem_of_getElem? other)).mono grows kept
  rcases moves with ⟨rfl, idle, idle', same⟩ | ⟨ne, others, first, effect⟩
  · have claims : c'.claims = c.claims := by
      rw [Call.claims, Call.claims, Call.is_store_turn turned, idle, idle', same]
    refine ⟨?_, ?_, ?_, fun x named => (kept x (sound.placed x named)).1, reads⟩
    · refine Pool.countP_set_le_one found sound.one fun busy _ => ?_
      rw [idle'] at busy
      cases busy
    · refine Pool.countP_set_le_one found sound.stores fun claimed free => ?_
      cases (claims.symm.trans claimed).symm.trans free
    · intro m member x w work
      rcases Pool.mem_set_cases member with rfl | ⟨j, _, other⟩
      · cases idle'.symm.trans work
      · exact sound.working m (List.mem_of_getElem? other) x w work
  · have owns : ∀ x w, c.work = some (x, w) → Owns (tmp key) (path key) p.shared x w :=
      fun x w busy => (sound.working c listed x w busy).2.1
    refine ⟨?_, ?_, ?_, ?_, reads⟩
    · refine Pool.countP_set_le_one found sound.one fun _ idle m member => ?_
      obtain ⟨j, other⟩ := List.mem_iff_getElem?.1 member
      by_cases own : j = i
      · rw [own, found] at other
        cases other
        exact idle
      · rw [others j m other own]
        rfl
    · refine Pool.countP_set_le_one found sound.stores fun claimed free => ?_
      have is_store : c.is_store = true := by
        rw [← Call.is_store_turn turned]
        exact ((Bool.and_eq_true _ _).mp claimed).1
      have idle : c.work = none := by
        rw [Call.claims, is_store, Bool.true_and, Bool.or_eq_false_iff] at free
        exact Option.isNone_iff_eq_none.1 (Option.isSome_eq_false_iff.1 free.1)
      exact first idle is_store
    · intro m member x w work
      rcases Pool.mem_set_cases member with rfl | ⟨j, away, other⟩
      · refine ⟨ne, effect.owns ne owns x w work, effect.linked ?_ x w work⟩
        exact fun x w busy => (sound.working c listed x w busy).2.2
      · cases (others j m other away).symm.trans work
    · intro y named
      rcases effect.published ne owns named with before | ⟨_, tmp, whole, w, busy⟩
      · exact (kept y (sound.placed y before)).1
      · refine ⟨g.bound named, ?_, c', Pool.mem_set_self c' found, whole⟩
        rw [tmp]
        exact (Option.some_ne_none y).symm

theorem sound_of_reach {p : State} (reached : (system key).Reach (undisturbed key) start p) :
    Sound key p := by
  refine reached.invariant sound_start ?_
  intro p e p' sound admitted stepped
  rcases Pool.Rules.step_cases stepped with ⟨b, f, ls, rfl, acted, rfl⟩ |
    ⟨i, o, c, g, c', rfl, found, turned, rfl⟩
  · cases acted
    exact sound.act b
  · exact sound.turn admitted found turned

end Run

/-- **Blob writes are atomic and uploads never overwrite**, when no put begins while another
is under way and no `store`'s put after another `store` has put its file in place. -/
theorem blob_writes_atomic (key : Text) (p : State)
    (reached : (system key).Reach (undisturbed key) start p) : Atomic (undisturbed key) key p := by
  have sound := sound_of_reach reached
  refine ⟨?_, ?_, fun bytes member => sound.reads _ member⟩
  · refine Nat.le_trans (List.countP_mono_left fun c _ succeeded => ?_) sound.stores
    cases c with
    | store body s =>
        cases s with
        | ret r =>
            cases r with
            | ok u => rfl
            | error e => cases succeeded
        | _ => cases succeeded
    | _ => cases succeeded
  · rintro i o c p' found is_store ⟨m, member, succeeded⟩ admitted stepped
    have done : m.is_store = true ∧ m.work = none ∧ ∃ bytes, m.stored = some bytes := by
      cases m with
      | store body s =>
          cases s with
          | ret r =>
              cases r with
              | ok u => exact ⟨rfl, rfl, body, rfl⟩
              | error e => cases succeeded
          | _ => cases succeeded
      | _ => cases succeeded
    obtain ⟨store, idle, bytes, stored⟩ := done
    rcases Pool.Rules.step_cases stepped with ⟨b, f, ls, no, _⟩ | ⟨_, _, _, g, c', is, found', turned, rfl⟩
    · cases no
    · cases is
      cases found.symm.trans found'
      show g.read (path key) = _
      rcases Call.turn_cases turned with ⟨rfl, _⟩ | ⟨opens, rfl, _⟩ | ⟨x, w, busy, _⟩
      · rfl
      · -- it would open the temporary file after a `store` has put its file in place
        obtain ⟨_, _, first⟩ := admitted c found opens
        cases (first is_store m member store).symm.trans stored
      · -- two would claim the key
        obtain ⟨j, other⟩ := List.mem_iff_getElem?.1 member
        have away : j ≠ i := by
          rintro rfl
          cases found.symm.trans other
          cases busy.symm.trans idle
        have claimed : c.claims = true := by
          rw [Call.claims, is_store, busy]
          rfl
        have free := Pool.not_of_countP sound.stores found claimed other away
        rw [Call.claims, store, idle, stored] at free
        cases free

/-! ## Two uploads of one file -/

instance (key : Text) (p : State) : (e : Event) → Decidable (undisturbed key p e)
  | .act _ => .isTrue trivial
  | .turn _ (.fault _) => .isTrue trivial
  | .turn i .ok =>
      match found : p.tasks[i]? with
      | none => .isTrue fun c is => nomatch found.symm.trans is
      | some c =>
          decidable_of_iff (c.opens = true → path key ≠ tmp key ∧ (∀ m ∈ p.tasks, m.work = none) ∧
            (c.is_store = true → ∀ m ∈ p.tasks, m.is_store = true → m.stored = none))
            ⟨fun holds m is => by cases found.symm.trans is; exact holds, fun holds => holds c found⟩

private def qlog_key : Text := "d_t--0--qlog.zst"

/-- A call takes so many steps. -/
private def steps (i n : Nat) : List Event := List.replicate n (.turn i .ok)

/-- An upload, a reader of what it stored, and an upload that is refused. -/
theorem blob_writes_atomic_one_upload : ∃ p, Atomic (undisturbed qlog_key) qlog_key p ∧
    p.tasks = [.store [1] (.ret (.ok ())), .get (.ret (.ok [1])),
      .store [2] (.ret (.error (.Forbidden "file already uploaded")))] := by
  have run : (((system qlog_key).guard (undisturbed qlog_key)).replay start
      (.act (.store [1]) :: steps 0 7 ++ [.act .get, .act (.store [2])] ++ steps 1 3 ++ steps 2 1)).any
      (fun p => decide (p.tasks = [.store [1] (.ret (.ok ())), .get (.ret (.ok [1])),
        .store [2] (.ret (.error (.Forbidden "file already uploaded")))])) = true := by
    decide
  obtain ⟨p, replayed, holds⟩ := (Option.any_eq_true _ _).1 run
  exact ⟨p, blob_writes_atomic qlog_key p (System.reach_of_replay_guard replayed),
    of_decide_eq_true holds⟩

/-- Two uploads of one file that both find none: both succeed. -/
theorem two_uploads_succeed : ¬ ∀ (key : Text) (p : State),
    (system key).Reach System.free start p → Atomic System.free key p := by
  intro atomic
  have run : ((system qlog_key).replay start
      ([.act (.store [1]), .act (.store [2])] ++ steps 0 1 ++ steps 1 1 ++ steps 0 6 ++ steps 1 6)).any
      (fun p => decide (p.tasks.countP Call.succeeded = 2)) = true := by
    decide
  obtain ⟨p, replayed, twice⟩ := (Option.any_eq_true _ _).1 run
  have once := (atomic qlog_key p (System.reach_of_replay replayed)).once
  have two := of_decide_eq_true twice
  omega

end HomeConnect.Storage.Blobs
