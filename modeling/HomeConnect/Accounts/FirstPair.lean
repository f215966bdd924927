/-
# Accounts.FirstPair -- when pairing is exclusive

Both handlers read the owner and write later.  `pilotpair` overwrites it without a
guard; `claim_device` guards its `UPDATE` with `owner_id IS NULL` but then shares the
device and answers `first_pair` whether or not a row changed.  So two users who read
the same unowned device are both told they paired it: `two_users_paired`.

In every run in which each owner `UPDATE` of the device finds it still unowned, pairing
is exclusive (`pairing_exclusive`): at most one request is answered `first_pair`, its
user is the owner from the first write on, nobody else gets a share, and once all
requests have returned exactly one was answered, if any could pair at all.

The invariant counts the tasks that have won the device: none while it is unowned, one
from then on.
-/
import HomeConnect.Accounts.Pairing

namespace HomeConnect.Accounts

open HomeConnect.Theory

set_option autoImplicit false

def Db.owner (db : Db) (dongle : Text) : Option Int :=
  (db.devices.get? dongle).bind Device.owner_id

/-- The request was answered `first_pair` for the device. -/
def told_first (dongle : Text) (t : PairTask) : Bool :=
  t.prog.result? = some (.ok (.paired dongle true))

/-- The requests answered `first_pair` for the device. -/
def first_pairs (dongle : Text) (tasks : List PairTask) : List PairCall :=
  (tasks.filter (told_first dongle)).map Task.tag

/-- The request pairs this device, with this public key, if it finds it unowned. -/
def PairCall.targets (jwt : Jwt) (public_key dongle : Text) (call : PairCall) : Bool :=
  match call.request with
  | .claim_device d _ => d = dongle
  | .pilotpair pair_token =>
      match jwt.decode_claims_unverified pair_token with
      | none => false
      | some unverified =>
          match jwt.verify_device_token public_key pair_token with
          | .error _ => false
          | .ok claims => unverified.identity = dongle && claims.pair

/-- Every owner `UPDATE` of the device finds it still unowned. -/
def FirstOnly (dongle : Text) (p : Pool Db PairTask) : Pool.Event (Text × PairRequest) Unit → Bool
  | .turn i _ =>
      match p.tasks[i]? with
      | some ⟨_, .op (.set_owner d _ _) _⟩ => d ≠ dongle || (p.shared.owner dongle).isNone
      | _ => true
  | .act _ => true

structure Exclusive (jwt : Jwt) (start : Db) (device : Device) (p : Pool Db PairTask) : Prop where
  one : (first_pairs device.dongle_id p.tasks).length ≤ 1
  owns : ∀ call ∈ first_pairs device.dongle_id p.tasks,
    p.shared.owner device.dongle_id = some call.user.id
  shares : ∀ s ∈ p.shared.authorized_users.rows, s.device_dongle_id = device.dongle_id →
    s ∈ start.authorized_users.rows ∨ p.shared.owner device.dongle_id = some s.user_id
  answered : Task.finished p.tasks = true →
    (∃ t ∈ p.tasks, t.tag.targets jwt device.public_key device.dongle_id = true) →
    (first_pairs device.dongle_id p.tasks).length = 1

/-! ## The statements -/

theorem Db.set_owner_spec {db : Db} {owner : Int} (known : db.user_exists owner = true)
    (dongle : Text) (unowned : Bool) : ∃ db', db.set_owner dongle owner unowned = some db' ∧
      db'.users = db.users ∧ db'.authorized_users = db.authorized_users ∧
      ∀ d, db'.devices.get? d = (db.devices.get? d).map fun dev =>
        if d = dongle ∧ (unowned = true → dev.owner_id = none)
        then { dev with owner_id := some owner } else dev := by
  refine ⟨_, if_neg (by simp [known]), rfl, rfl, fun d => ?_⟩
  rw [Table.get?_update]
  cases found : db.devices.get? d with
  | none => rfl
  | some dev =>
      have same := Table.key_of_get? found
      cases unowned <;> simp [same]

theorem Db.share_spec {db : Db} {user_id : Int} {dongle : Text}
    (known : db.user_exists user_id = true) (device : (db.devices.get? dongle).isSome = true)
    (created_at : Option Int) : ∃ db', db.share user_id dongle created_at = some db' ∧
      db'.users = db.users ∧ db'.devices = db.devices ∧
      ∀ s ∈ db'.authorized_users.rows,
        s ∈ db.authorized_users.rows ∨ (s.user_id = user_id ∧ s.device_dongle_id = dongle) := by
  cases created_at with
  | none => exact ⟨db, rfl, rfl, rfl, fun s member => .inl member⟩
  | some created_at =>
      refine ⟨_, if_pos (by rw [known, device]; rfl), rfl, rfl, fun s member => ?_⟩
      rcases Table.mem_insertIfAbsent.1 member with old | ⟨rfl, _⟩
      · exact .inl old
      · exact .inr ⟨rfl, rfl⟩

theorem Db.user_exists_of_mem {db : Db} {user : User} (member : user ∈ db.users.rows) :
    db.user_exists user.id = true := by
  simp only [Db.user_exists, List.any_eq_true, decide_eq_true_eq]
  exact ⟨user, member, rfl⟩

/-! ## Where a request is -/

/-- About to share the device `d` with `u` and then answer `first_pair`. -/
def Sharing (u : Int) (d : Text) (p : Prog PairOp (AppResult PairAnswer)) : Prop :=
  ∃ c k, p = .op (.share u d c) k ∧ k (.ok ()) = .ret (.ok (.paired d true))

/-- About to make `u` the owner of `d`, and to share it next. -/
def Armed (u : Int) (d : Text) (p : Prog PairOp (AppResult PairAnswer)) : Prop :=
  ∃ g k, p = .op (.set_owner d u g) k ∧ Sharing u d (k (.ok ()))

/-- A handler fails at once, or loads the device and then fails, declines an owned
device, or goes on to take it. -/
theorem handle_cases (jwt : Jwt) (call : PairCall) :
    ((∃ e, (call.request.handle jwt call.user).run = .ret (.error e)) ∧
      ∀ key dongle, call.targets jwt key dongle = false) ∨
    ∃ d k, (call.request.handle jwt call.user).run = .op (.load_device d) k ∧
      (∀ key dongle, call.targets jwt key dongle = true → d = dongle) ∧
      (∃ e, k (.ok none) = .ret (.error e)) ∧
      ∀ dev : Device, dev.dongle_id = d →
        (Armed call.user.id d (k (.ok (some dev))) ∨
          ∃ r, k (.ok (some dev)) = .ret r ∧ (∀ d', r ≠ .ok (.paired d' true)) ∧
            (call.targets jwt dev.public_key d = true → dev.owner_id ≠ none)) := by
  obtain ⟨user, request⟩ := call
  cases request with
  | claim_device dongle now =>
      refine .inr ⟨dongle, _, load_device_bind _ _, ?_, ⟨_, rfl⟩, fun dev _ => ?_⟩
      · intro key d targets
        simpa [PairCall.targets] using targets
      · dsimp only [claim_loaded]
        cases owned : dev.owner_id with
        | none => exact .inl ⟨_, _, rfl, _, _, rfl, rfl⟩
        | some owner =>
            by_cases mine : owner = user.id
            · exact .inr ⟨_, by simp only [mine, if_true]; rfl, by simp, by simp⟩
            · exact .inr ⟨_, by simp only [mine, if_false]; rfl, by simp, by simp⟩
  | pilotpair token =>
      simp only [PairRequest.handle, pilotpair, PairCall.targets]
      cases decoded : jwt.decode_claims_unverified token with
      | none => exact .inl ⟨⟨_, rfl⟩, fun _ _ => rfl⟩
      | some unverified =>
          refine .inr ⟨unverified.identity, _, load_device_bind _ _, ?_, ⟨_, rfl⟩,
            fun dev same => ?_⟩
          · intro key d targets
            dsimp only at targets
            split at targets
            · cases targets
            · simp only [Bool.and_eq_true, decide_eq_true_eq] at targets
              exact targets.1
          · dsimp only [pilotpair_loaded]
            cases verified : jwt.verify_device_token dev.public_key token with
            | error e => exact .inr ⟨_, rfl, by simp, by simp⟩
            | ok claims =>
                by_cases pair : claims.pair = true
                · by_cases unowned : dev.owner_id = none
                  · left
                    simp only [pair, unowned, if_true, same]
                    exact ⟨_, _, rfl, _, _, rfl, rfl⟩
                  · right
                    simp only [pair, unowned, if_true, if_false]
                    exact ⟨_, rfl, by simp, fun _ => unowned⟩
                · right
                  simp only [pair]
                  exact ⟨_, rfl, by simp, by simp⟩

/-- A task that has set the owner of the device: about to share it, or answered. -/
def won (dongle : Text) (t : PairTask) : Bool :=
  match t.prog with
  | .op (.share _ d _) _ => d = dongle
  | .ret (.ok (.paired d true)) => d = dongle
  | _ => false

/-- What holds of a request at each point of its handler, for a device with public key
`key`. -/
inductive Stage (jwt : Jwt) (key dongle : Text) (db : Db) (t : PairTask) : Prop
  | start (fresh : t.prog = (t.tag.request.handle jwt t.tag.user).run)
  | armed (d : Text) (armed : Armed t.tag.user.id d t.prog)
      (known : (db.devices.get? d).isSome = true)
      (aims : t.tag.targets jwt key dongle = true → d = dongle)
  | sharing (d : Text) (sharing : Sharing t.tag.user.id d t.prog)
      (known : (db.devices.get? d).isSome = true)
      (aims : t.tag.targets jwt key dongle = true → d = dongle)
      (owns : d = dongle → db.owner dongle = some t.tag.user.id)
  | returned (r : AppResult PairAnswer) (done : t.prog = .ret r)
      (owns : r = .ok (.paired dongle true) → db.owner dongle = some t.tag.user.id)
      (aims : t.tag.targets jwt key dongle = true → db.owner dongle ≠ none)

/-- Devices stay, and the device's owner stays once set. -/
structure Settles (dongle : Text) (db db' : Db) : Prop where
  users : db'.users = db.users
  known : ∀ d, (db.devices.get? d).isSome = true → (db'.devices.get? d).isSome = true
  key : ((db'.devices.get? dongle).map Device.public_key) =
    (db.devices.get? dongle).map Device.public_key
  owner : ∀ u, db.owner dongle = some u → db'.owner dongle = some u
  shares : ∀ s ∈ db'.authorized_users.rows, s.device_dongle_id = dongle →
    s ∈ db.authorized_users.rows ∨ db'.owner dongle = some s.user_id

theorem Settles.refl (dongle : Text) (db : Db) : Settles dongle db db :=
  ⟨rfl, fun _ known => known, rfl, fun _ owned => owned, fun _ member _ => .inl member⟩

theorem Stage.settle {jwt : Jwt} {key dongle : Text} {db db' : Db} {t : PairTask}
    (stage : Stage jwt key dongle db t) (settles : Settles dongle db db') :
    Stage jwt key dongle db' t := by
  cases stage with
  | start fresh => exact .start fresh
  | armed d armed known aims => exact .armed d armed (settles.known d known) aims
  | sharing d sharing known aims owns =>
      exact .sharing d sharing (settles.known d known) aims fun here =>
        settles.owner _ (owns here)
  | returned r done owns aims =>
      refine .returned r done (fun paired => settles.owner _ (owns paired)) fun targets => ?_
      obtain ⟨u, owned⟩ := Option.ne_none_iff_exists'.1 (aims targets)
      rw [settles.owner u owned]
      exact Option.some_ne_none u

/-- The number of tasks that have won, as the owner column says it. -/
def taken (db : Db) (dongle : Text) : Nat := if db.owner dongle = none then 0 else 1

/-! ## One turn of a request -/

section Turn

variable {jwt : Jwt} {key dongle : Text} {db db' : Db} {t t' : PairTask}

theorem turn_start (keyed : (db.devices.get? dongle).map Device.public_key = some key)
    (fresh : t.prog = (t.tag.request.handle jwt t.tag.user).run)
    (turned : t.turn PairOp.exec () db = some (db', t')) :
    db' = db ∧ t'.tag = t.tag ∧ Stage jwt key dongle db t' ∧ won dongle t = false ∧
      won dongle t' = false := by
  obtain ⟨β, f, k, prog, rfl, rfl⟩ := Task.turn_cases turned
  rcases handle_cases jwt t.tag with ⟨⟨e, failed⟩, _⟩ | ⟨d, k', loads, aims, ⟨e, missing⟩, loaded⟩
  · rw [← fresh, prog] at failed
    cases failed
  · rw [← fresh, prog] at loads
    cases loads
    have before : won dongle t = false := by rw [won, prog]
    have replied : PairOp.exec (.load_device d) () db = (.ok (db.devices.get? d), db) := rfl
    rw [replied]
    cases found : db.devices.get? d with
    | none =>
        refine ⟨rfl, rfl, .returned _ missing (by simp) fun targets => ?_, before, ?_⟩
        · -- A request that targets the device finds it.
          rw [← aims key dongle targets, found] at keyed
          cases keyed
        · rw [won, missing]
    | some dev =>
        have id := Table.key_of_get? found
        rcases loaded dev id with armed | ⟨r, returned, notPaired, declines⟩
        · refine ⟨rfl, rfl, .armed d armed (by rw [found]; rfl) (aims key dongle), before, ?_⟩
          obtain ⟨g, k, next, _⟩ := armed
          rw [won, next]
        · refine ⟨rfl, rfl, .returned r returned (fun paired => absurd paired (notPaired dongle))
            fun targets => ?_, before, ?_⟩
          · have here := aims key dongle targets
            subst here
            rw [found] at keyed
            cases keyed
            rw [Db.owner, found]
            exact declines targets
          · rw [won, returned]
            split
            · rename_i sameProg
              cases sameProg
            · rename_i d' sameProg
              cases sameProg
              exact absurd rfl (notPaired d')
            · rfl

theorem turn_armed {d : Text} (known_user : db.user_exists t.tag.user.id = true)
    (armed : Armed t.tag.user.id d t.prog) (known : (db.devices.get? d).isSome = true)
    (aims : t.tag.targets jwt key dongle = true → d = dongle)
    (first : d = dongle → db.owner dongle = none)
    (turned : t.turn PairOp.exec () db = some (db', t')) :
    Settles dongle db db' ∧ t'.tag = t.tag ∧ Stage jwt key dongle db' t' ∧
      (if won dongle t' then 1 else 0) + taken db dongle =
        (if won dongle t then 1 else 0) + taken db' dongle := by
  obtain ⟨β, f, k, prog, rfl, rfl⟩ := Task.turn_cases turned
  obtain ⟨g, k', next, sharing⟩ := armed
  rw [prog] at next
  cases next
  obtain ⟨db', written, users, shares, devices⟩ := Db.set_owner_spec known_user d g
  have replied : PairOp.exec (.set_owner d t.tag.user.id g) () db = (.ok (), db') := by
    rw [PairOp.exec, written]
  rw [replied]
  have before : won dongle t = false := by rw [won, prog]
  have after : won dongle ⟨t.tag, k' (.ok ())⟩ = decide (d = dongle) := by
    obtain ⟨c, k'', next, _⟩ := sharing
    rw [won, next]
  have exists' : ∀ e, (db.devices.get? e).isSome = true → (db'.devices.get? e).isSome = true := by
    intro e found
    rw [devices e, Option.isSome_map]
    exact found
  have keyed : (db'.devices.get? dongle).map Device.public_key =
      (db.devices.get? dongle).map Device.public_key := by
    rw [devices dongle, Option.map_map]
    congr 1
    funext dev
    dsimp only [Function.comp]
    split <;> rfl
  by_cases here : d = dongle
  · subst here
    have unowned := first rfl
    have owned : db'.owner d = some t.tag.user.id := by
      obtain ⟨dev, found⟩ := Option.isSome_iff_exists.1 known
      rw [Db.owner, found] at unowned
      rw [Db.owner, devices d, found]
      simp only [Option.bind_some] at unowned
      simp [unowned]
    refine ⟨⟨users, exists', keyed, fun u was => ?_, fun s member _ => ?_⟩, rfl,
      .sharing d sharing (exists' d known) aims fun _ => owned, ?_⟩
    · rw [unowned] at was
      cases was
    · rw [shares] at member
      exact .inl member
    · rw [after, before, taken, taken, unowned, owned]
      simp
  · have same : db'.owner dongle = db.owner dongle := by
      rw [Db.owner, Db.owner, devices dongle]
      simp [Ne.symm here]
    refine ⟨⟨users, exists', keyed, fun u was => same.trans was, fun s member _ => ?_⟩, rfl,
      .sharing d sharing (exists' d known) aims fun there => absurd there here, ?_⟩
    · rw [shares] at member
      exact .inl member
    · rw [after, before, taken, taken, same]
      simp [here]

theorem turn_sharing {d : Text} (known_user : db.user_exists t.tag.user.id = true)
    (sharing : Sharing t.tag.user.id d t.prog) (known : (db.devices.get? d).isSome = true)
    (aims : t.tag.targets jwt key dongle = true → d = dongle)
    (owns : d = dongle → db.owner dongle = some t.tag.user.id)
    (turned : t.turn PairOp.exec () db = some (db', t')) :
    Settles dongle db db' ∧ t'.tag = t.tag ∧ Stage jwt key dongle db' t' ∧
      (if won dongle t' then 1 else 0) + taken db dongle =
        (if won dongle t then 1 else 0) + taken db' dongle := by
  obtain ⟨β, f, k, prog, rfl, rfl⟩ := Task.turn_cases turned
  obtain ⟨c, k', next, last⟩ := sharing
  rw [prog] at next
  cases next
  obtain ⟨db', written, users, devices, shares⟩ := Db.share_spec known_user known c
  have replied : PairOp.exec (.share t.tag.user.id d c) () db = (.ok (), db') := by
    rw [PairOp.exec, written]
  rw [replied]
  have same : db'.owner dongle = db.owner dongle := by rw [Db.owner, Db.owner, devices]
  have before : won dongle t = decide (d = dongle) := by rw [won, prog]
  have after : won dongle ⟨t.tag, k' (.ok ())⟩ = decide (d = dongle) := by rw [won, last]
  refine ⟨⟨users, by rw [devices]; exact fun _ found => found, by rw [devices],
    fun u was => same.trans was, fun s member here => ?_⟩, rfl,
    .returned _ last (fun paired => ?_) fun targets => ?_, ?_⟩
  · rcases shares s member with old | ⟨user, device⟩
    · exact .inl old
    · exact .inr (by rw [same, owns (device.symm.trans here), user])
  · cases paired
    exact same.trans (owns rfl)
  · rw [same, owns (aims targets)]
    exact Option.some_ne_none _
  · rw [after, before, taken, taken, same]

theorem turn_stage (keyed : (db.devices.get? dongle).map Device.public_key = some key)
    (known_user : db.user_exists t.tag.user.id = true) (stage : Stage jwt key dongle db t)
    (first : ∀ d u g k, t.prog = .op (.set_owner d u g) k → d = dongle → db.owner dongle = none)
    (turned : t.turn PairOp.exec () db = some (db', t')) :
    Settles dongle db db' ∧ t'.tag = t.tag ∧ Stage jwt key dongle db' t' ∧
      (if won dongle t' then 1 else 0) + taken db dongle =
        (if won dongle t then 1 else 0) + taken db' dongle := by
  cases stage with
  | start fresh =>
      obtain ⟨rfl, tag, stage, before, after⟩ := turn_start keyed fresh turned
      exact ⟨Settles.refl dongle db', tag, stage, by rw [before, after]⟩
  | armed d armed known aims =>
      refine turn_armed known_user armed known aims (fun here => ?_) turned
      obtain ⟨g, k, next, _⟩ := armed
      exact first d _ g k next here
  | sharing d sharing known aims owns => exact turn_sharing known_user sharing known aims owns turned
  | returned r done owns aims =>
      obtain ⟨β, f, k, prog, _, _⟩ := Task.turn_cases turned
      rw [done] at prog
      cases prog

end Turn

/-! ## Every run -/

/-- The invariant of a run from `start`, for a device of `start`. -/
structure Inv (jwt : Jwt) (start : Db) (device : Device) (p : Pool Db PairTask) : Prop where
  users : p.shared.users = start.users
  keyed : (p.shared.devices.get? device.dongle_id).map Device.public_key = some device.public_key
  shares : ∀ s ∈ p.shared.authorized_users.rows, s.device_dongle_id = device.dongle_id →
    s ∈ start.authorized_users.rows ∨ p.shared.owner device.dongle_id = some s.user_id
  counted : p.tasks.countP (won device.dongle_id) = taken p.shared device.dongle_id
  stages : ∀ t ∈ p.tasks, t.tag.user ∈ start.users.rows ∧
    Stage jwt device.public_key device.dongle_id p.shared t

theorem inv_start {jwt : Jwt} {start : Db} {device : Device}
    (found : start.devices.get? device.dongle_id = some device) (unowned : device.owner_id = none) :
    Inv jwt start device ⟨start, []⟩ := by
  refine ⟨rfl, by rw [found]; rfl, fun s member _ => .inl member, ?_, by simp⟩
  rw [taken, Db.owner, found, Option.bind_some, unowned]
  rfl

theorem inv_step {jwt : Jwt} {start : Db} {device : Device} {p p' : Pool Db PairTask}
    {e : Pool.Event (Text × PairRequest) Unit} (inv : Inv jwt start device p)
    (first : FirstOnly device.dongle_id p e = true)
    (stepped : (pairRules jwt).system.step p e = some p') :
    Inv jwt start device p' ∧ ∀ u, p.shared.owner device.dongle_id = some u →
      p'.shared.owner device.dongle_id = some u := by
  obtain ⟨call, db', ts, rfl, arrived, rfl⟩ | ⟨i, o, t, db', t', rfl, found, turned, rfl⟩ :=
    Pool.Rules.step_cases stepped
  · obtain ⟨user, known, same⟩ := Option.map_eq_some_iff.1 arrived
    cases same
    refine ⟨⟨inv.users, inv.keyed, inv.shares, ?_, fun t member => ?_⟩, fun _ owned => owned⟩
    · -- The new request has won nothing: it has at most failed, or loads the device next.
      have fresh : won device.dongle_id
          ⟨⟨user, call.2⟩, (call.2.handle jwt user).run⟩ = false := by
        rcases handle_cases jwt ⟨user, call.2⟩ with ⟨⟨e, failed⟩, _⟩ | ⟨d, k, loads, _⟩
        · rw [won, failed]
        · rw [won, loads]
      rw [List.countP_append, inv.counted, List.countP_singleton, fresh]
      rfl
    · rcases List.mem_append.1 member with old | new
      · exact inv.stages t old
      · rw [List.mem_singleton.1 new]
        refine ⟨?_, .start rfl⟩
        rw [← inv.users]
        exact (Users.mem_of_by_identity known).1
  · have member := List.mem_of_getElem? found
    obtain ⟨known, stage⟩ := inv.stages t member
    have exists' : p.shared.user_exists t.tag.user.id = true :=
      Db.user_exists_of_mem (by rw [inv.users]; exact known)
    obtain ⟨settles, tag, stage', moved⟩ := turn_stage inv.keyed exists' stage
      (fun d u g k next here => by
        obtain ⟨call, prog⟩ := t
        cases next
        simpa [FirstOnly, found, here] using first) turned
    refine ⟨⟨settles.users.trans inv.users, settles.key.trans inv.keyed, ?_, ?_, ?_⟩,
      settles.owner⟩
    · intro s row here
      rcases settles.shares s row here with old | owned
      · rcases inv.shares s old here with initial | owned
        · exact .inl initial
        · exact .inr (settles.owner _ owned)
      · exact .inr owned
    · have counted := Pool.countP_set (won device.dongle_id) t' found
      rw [inv.counted] at counted
      dsimp only
      omega
    · intro u listed
      rcases List.mem_or_eq_of_mem_set listed with old | rfl
      · obtain ⟨known', stage⟩ := inv.stages u old
        exact ⟨known', stage.settle settles⟩
      · rw [tag]
        exact ⟨known, stage'⟩

theorem won_of_told {dongle : Text} {t : PairTask} (told : told_first dongle t = true) :
    won dongle t = true := by
  obtain ⟨tag, prog⟩ := t
  cases prog with
  | op f k => simp [told_first, Prog.result?] at told
  | ret r =>
      simp only [told_first, Prog.result?, Option.some.injEq, decide_eq_true_eq] at told
      subst told
      exact decide_eq_true rfl

theorem told_of_won {dongle : Text} {t : PairTask} (won' : won dongle t = true)
    (done : t.prog.done = true) : told_first dongle t = true := by
  obtain ⟨tag, prog⟩ := t
  cases prog with
  | op f k => cases done
  | ret r =>
      simp only [won] at won'
      split at won'
      · rename_i same
        cases same
      · rename_i d same
        cases same
        simpa [told_first, Prog.result?] using won'
      · cases won'

theorem Inv.exclusive {jwt : Jwt} {start : Db} {device : Device} {p : Pool Db PairTask}
    (inv : Inv jwt start device p) : Exclusive jwt start device p := by
  have told : (first_pairs device.dongle_id p.tasks).length =
      p.tasks.countP (told_first device.dongle_id) := by
    rw [first_pairs, List.length_map, List.countP_eq_length_filter]
  have atMost : taken p.shared device.dongle_id ≤ 1 := by
    rw [taken]
    split <;> omega
  refine ⟨?_, fun call member => ?_, inv.shares, fun finished targeted => ?_⟩
  · have fewer : p.tasks.countP (told_first device.dongle_id) ≤
        p.tasks.countP (won device.dongle_id) :=
      List.countP_mono_left fun t _ => won_of_told
    rw [inv.counted] at fewer
    omega
  · obtain ⟨t, answered, rfl⟩ := List.mem_map.1 member
    obtain ⟨listed, told⟩ := List.mem_filter.1 answered
    have result : t.prog.result? = some (.ok (.paired device.dongle_id true)) := by
      simpa [told_first] using told
    cases (inv.stages t listed).2 with
    | start fresh =>
        rcases handle_cases jwt t.tag with ⟨⟨e, failed⟩, _⟩ | ⟨d, k, loads, _⟩
        · rw [fresh, failed] at result
          cases result
        · rw [fresh, loads] at result
          cases result
    | armed d armed _ _ =>
        obtain ⟨g, k, next, _⟩ := armed
        rw [next] at result
        cases result
    | sharing d sharing _ _ _ =>
        obtain ⟨c, k, next, _⟩ := sharing
        rw [next] at result
        cases result
    | returned r done owns _ =>
        rw [done] at result
        exact owns (Option.some.inj result)
  · obtain ⟨t, listed, targets⟩ := targeted
    have done : ∀ u ∈ p.tasks, u.prog.done = true := by
      simpa [Task.finished] using finished
    have all : p.tasks.countP (told_first device.dongle_id) =
        p.tasks.countP (won device.dongle_id) :=
      List.countP_congr fun u member =>
        ⟨won_of_told, fun w => told_of_won w (done u member)⟩
    rw [told, all, inv.counted, taken, if_neg]
    cases (inv.stages t listed).2 with
    | start fresh =>
        have returned := done t listed
        rcases handle_cases jwt t.tag with ⟨_, never⟩ | ⟨d, k, loads, _⟩
        · rw [never] at targets
          cases targets
        · rw [fresh, loads] at returned
          cases returned
    | armed d armed _ _ =>
        have returned := done t listed
        obtain ⟨g, k, next, _⟩ := armed
        rw [next] at returned
        cases returned
    | sharing d sharing _ _ _ =>
        have returned := done t listed
        obtain ⟨c, k, next, _⟩ := sharing
        rw [next] at returned
        cases returned
    | returned r _ _ aims => exact aims targets

/-- **Pairing is exclusive** in every run in which each owner `UPDATE` of the device
finds it still unowned: at any moment at most one request has been answered
`first_pair`, and once all have returned exactly one has, if any could pair; that user
is the owner from the first write on, and nobody else gets a share. -/
theorem pairing_exclusive (jwt : Jwt) (start : Db) (device : Device)
    (found : start.devices.get? device.dongle_id = some device) (unowned : device.owner_id = none)
    (p p' : Pool Db PairTask)
    (reached : (pairRules jwt).system.Reach
      (fun p e => FirstOnly device.dongle_id p e = true) ⟨start, []⟩ p)
    (later : (pairRules jwt).system.Reach (fun p e => FirstOnly device.dongle_id p e = true) p p') :
    Exclusive jwt start device p' ∧ ∀ u, p.shared.owner device.dongle_id = some u →
      p'.shared.owner device.dongle_id = some u := by
  have inv : Inv jwt start device p :=
    reached.invariant (inv_start found unowned) fun p e p' inv first stepped =>
      (inv_step inv first stepped).1
  have both : Inv jwt start device p' ∧ ∀ u, p.shared.owner device.dongle_id = some u →
      p'.shared.owner device.dongle_id = some u := by
    refine later.invariant (I := fun q => Inv jwt start device q ∧
      ∀ u, p.shared.owner device.dongle_id = some u → q.shared.owner device.dongle_id = some u)
      ⟨inv, fun _ owned => owned⟩ ?_
    rintro q e q' ⟨inv, kept⟩ first stepped
    obtain ⟨inv', settles⟩ := inv_step inv first stepped
    exact ⟨inv', fun u owned => settles u (kept u owned)⟩
  exact ⟨both.1.exclusive, both.2⟩

/-! ## Poles -/

private def two_users : Db where
  users :=
    { rows := [{ id := 1, identity := "a", username := "alice" },
        { id := 2, identity := "b", username := "bob" }]
      sequence := 2
      ids := by decide
      identities := by decide
      usernames := by decide
      given := by decide }
  devices := ⟨[{ dongle_id := "dev", public_key := "pem" }], List.nodup_singleton _⟩
  authorized_users := Table.empty

private def unpaired : Device := { dongle_id := "dev", public_key := "pem" }

/-- One device-signed token. -/
private def one_token : Jwt where
  decode_claims_unverified token := if token = "signed" then some ⟨"dev", true⟩ else none
  verify_device_token pem token :=
    if pem = "pem" ∧ token = "signed" then .ok ⟨"dev", true⟩
    else .error (.Unauthorized "device token invalid")

private def alice_claims : Pool.Event (Text × PairRequest) Unit :=
  .act ("a", .claim_device "dev" 1000)

private def bob_pairs : Pool.Event (Text × PairRequest) Unit := .act ("b", .pilotpair "signed")

/-- Alice claims the device while Bob pairs it: both read it unowned, both are answered
`first_pair`, and Bob's unguarded `UPDATE` takes it from Alice, who keeps her share. -/
theorem two_users_paired : ¬ ∀ (jwt : Jwt) (start : Db) (device : Device),
    start.devices.get? device.dongle_id = some device → device.owner_id = none →
      start.authorized_users.rows = [] → ∀ p p' : Pool Db PairTask,
        (pairRules jwt).system.Reach System.free ⟨start, []⟩ p →
        (pairRules jwt).system.Reach System.free p p' →
        Exclusive jwt start device p' ∧ ∀ u, p.shared.owner device.dongle_id = some u →
          p'.shared.owner device.dongle_id = some u := by
  intro claim
  have run : ∃ p, (pairRules one_token).system.replay ⟨two_users, []⟩
      [alice_claims, bob_pairs, .turn 0 (), .turn 1 (), .turn 0 (), .turn 0 (), .turn 1 (),
        .turn 1 ()] = some p ∧ (first_pairs "dev" p.tasks).length = 2 := by
    refine ⟨_, rfl, ?_⟩
    decide
  obtain ⟨p, replayed, two⟩ := run
  have exclusive := (claim one_token two_users unpaired (by decide) rfl rfl p p
    (System.reach_of_replay replayed) .start).1
  have one := exclusive.one
  have same : (first_pairs unpaired.dongle_id p.tasks).length = 2 := two
  omega

/-- The same requests, Bob's after Alice's `UPDATE`: only Alice is answered
`first_pair`. -/
theorem pairing_exclusive_second_refused : ∃ p : Pool Db PairTask,
    (Exclusive one_token two_users unpaired p ∧ ∀ u, p.shared.owner "dev" = some u →
      p.shared.owner "dev" = some u) ∧ Task.finished p.tasks = true ∧
      first_pairs "dev" p.tasks =
        [⟨{ id := 1, identity := "a", username := "alice" }, .claim_device "dev" 1000⟩] := by
  have run : ∃ p : Pool Db PairTask,
      ((pairRules one_token).system.guard fun p e => FirstOnly "dev" p e = true).replay
        ⟨two_users, []⟩ [alice_claims, bob_pairs, .turn 0 (), .turn 0 (), .turn 1 (), .turn 0 ()] =
          some p ∧ Task.finished p.tasks = true ∧ first_pairs "dev" p.tasks =
        [⟨{ id := 1, identity := "a", username := "alice" }, .claim_device "dev" 1000⟩] := by
    refine ⟨_, rfl, ?_, ?_⟩ <;> decide
  obtain ⟨p, replayed, finished, answered⟩ := run
  have exclusive := pairing_exclusive one_token two_users unpaired (by decide) rfl p p
    (System.reach_of_replay_guard replayed) .start
  exact ⟨p, exclusive, finished, answered⟩

end HomeConnect.Accounts
