import LearningTasks.Library.RowLocks
import LearningTasks.Schemas.Scalars

namespace LearningTasks.Services.RefreshTokens

open Library.Strings Library.Transition Library.RowLocks Schemas.Scalars

/-- Microseconds, in UTC. -/
abbrev Instant := ℤ

def refreshTokenTtl : Instant := 7 * 24 * 60 * 60 * 1000000

structure User where
  id : UUID
  email : Text
  passwordHash : Text
  deriving DecidableEq

/-- A row of `refresh_tokens`. The last three fields are not stored: they trace
the token it replaced, the first token of its login and how many password
changes of the user the login had seen. -/
structure RefreshToken where
  id : UUID
  userId : UUID
  tokenHash : Text
  createdAt : Instant
  expiresAt : Instant
  revokedAt : Option Instant
  parent : Option UUID
  lineage : UUID
  epoch : ℕ
  deriving DecidableEq

structure Db where
  users : List User
  tokens : List RefreshToken
  epoch : UUID → ℕ

inductive CredentialUse
  | rotate
  | logout
  deriving DecidableEq

inductive Phase
  | idle
  | verified (user : User) (epoch : ℕ)
  | issued (token : RefreshToken)
  | located (use : CredentialUse) (tokenHash : Text) (owner : UUID)
  | owned (use : CredentialUse) (tokenHash : Text) (owner : UUID)
  | loaded (use : CredentialUse) (owner : UUID) (record : Option RefreshToken)
  | consumed (record : RefreshToken) (now : Instant)
  | rotated (record : RefreshToken) (now : Instant) (token : RefreshToken)
  | loggedOut (owner : UUID) (revoked : Option (RefreshToken × Instant))
  | reauthenticated (user : User)
  | rehashed (user : User) (passwordHash : Text)
  | changed (user : User) (passwordHash : Text) (revoked : List UUID) (now : Instant)

inductive Action
  | login (email password : Text)
  | issue (id : UUID) (tokenHash : Text) (now : Instant)
  | locate (use : CredentialUse) (tokenHash : Text)
  | lockOwner
  | load
  | consume (now : Instant)
  | replace (id : UUID) (tokenHash : Text)
  | logout (now : Instant)
  | reauthenticate (userId : UUID) (password : Text)
  | rehash (passwordHash : Text)
  | revokeAll (now : Instant)

def Phase.owner : Phase → Option UUID
  | .idle | .located _ _ _ => none
  | .verified user _ | .reauthenticated user | .rehashed user _ | .changed user _ _ _ => some user.id
  | .issued token => some token.userId
  | .owned _ _ owner | .loaded _ owner _ | .loggedOut owner _ => some owner
  | .consumed record _ | .rotated record _ _ => some record.userId

def getByHash (db : Db) (tokenHash : Text) (owner : UUID) : Option RefreshToken :=
  db.tokens.find? fun r ↦ r.tokenHash = tokenHash ∧ r.userId = owner

def revokeIfActive (db : Db) (record : RefreshToken) (revokedAt : Instant) : Bool :=
  db.tokens.any fun r ↦ r.id = record.id ∧ r.userId = record.userId ∧ r.revokedAt = none ∧
    revokedAt < r.expiresAt ∧ r.createdAt ≤ revokedAt

def revokeIfUnrevoked (db : Db) (record : RefreshToken) : Bool :=
  db.tokens.any fun r ↦ r.id = record.id ∧ r.userId = record.userId ∧ r.revokedAt = none

/-- The statements of the four transactions up to their commits. A statement
that raises has no next phase: the transaction can only be rolled back. -/
def advance (verifyPassword : Text → Text → Bool) (db : Db) : Phase → Action → Option Phase
  | .idle, .login email password =>
    match db.users.find? fun user ↦ user.email = email with
    | some user =>
      if verifyPassword password user.passwordHash then some (.verified user (db.epoch user.id))
      else none
    | none => none
  | .verified user epoch, .issue id tokenHash now =>
    if db.users.any fun u ↦ u.id = user.id then
      some (.issued ⟨id, user.id, tokenHash, now, now + refreshTokenTtl, none, none, id, epoch⟩)
    else none
  | .idle, .locate use tokenHash =>
    (db.tokens.find? fun r ↦ r.tokenHash = tokenHash).map fun r ↦ .located use tokenHash r.userId
  | .located use tokenHash owner, .lockOwner =>
    if db.users.any fun u ↦ u.id = owner then some (.owned use tokenHash owner) else none
  | .owned use tokenHash owner, .load => some (.loaded use owner (getByHash db tokenHash owner))
  | .loaded .rotate _ (some record), .consume now =>
    if record.revokedAt = none ∧ record.createdAt ≤ now ∧ now < record.expiresAt ∧
        revokeIfActive db record now then
      some (.consumed record now)
    else none
  | .consumed record now, .replace id tokenHash =>
    if db.users.any fun u ↦ u.id = record.userId then
      some (.rotated record now ⟨id, record.userId, tokenHash, now, now + refreshTokenTtl, none,
        some record.id, record.lineage, record.epoch⟩)
    else none
  | .loaded .logout owner none, .logout _ => some (.loggedOut owner none)
  | .loaded .logout owner (some record), .logout now =>
    if record.revokedAt.isSome then some (.loggedOut owner none)
    else if revokeIfUnrevoked db record then
      some (.loggedOut owner (some (record, max now record.createdAt)))
    else none
  | .idle, .reauthenticate userId password =>
    match db.users.find? fun user ↦ user.id = userId with
    | some user =>
      if verifyPassword password user.passwordHash then some (.reauthenticated user) else none
    | none => none
  | .reauthenticated user, .rehash passwordHash => some (.rehashed user passwordHash)
  | .rehashed user passwordHash, .revokeAll now =>
    some (.changed user passwordHash ((db.tokens.filter fun r ↦
      r.userId = user.id ∧ r.revokedAt = none).map (·.id)) now)
  | _, _ => none

def Db.insert (db : Db) (token : RefreshToken) : Option Db :=
  if ∀ r ∈ db.tokens, r.id ≠ token.id ∧ r.tokenHash ≠ token.tokenHash then
    some { db with tokens := db.tokens ++ [token] }
  else none

def Db.revokeRows (db : Db) (rows : RefreshToken → Bool) (revokedAt : RefreshToken → Instant) : Db :=
  { db with tokens := db.tokens.map fun r ↦
      if rows r then { r with revokedAt := some (revokedAt r) } else r }

def rowOf (record r : RefreshToken) : Bool := r.id = record.id ∧ r.userId = record.userId

def setPassword (db : Db) (userId : UUID) (passwordHash : Text) : Db :=
  { db with
    users := db.users.map fun u ↦
      if u.id = userId then { u with passwordHash := passwordHash } else u
    epoch := Function.update db.epoch userId (db.epoch userId + 1) }

def commit (db : Db) : Phase → Option Db
  | .issued token => db.insert token
  | .rotated record now token => (db.revokeRows (rowOf record) fun _ ↦ now).insert token
  | .loggedOut _ none => some db
  | .loggedOut _ (some (record, revokedAt)) => some (db.revokeRows (rowOf record) fun _ ↦ revokedAt)
  | .changed user passwordHash revoked now =>
    some (setPassword (db.revokeRows (fun r ↦ r.userId = user.id ∧ r.id ∈ revoked)
      fun r ↦ max now r.createdAt) user.id passwordHash)
  | _ => none

/-- The locks on token rows are left out: whoever takes one holds the lock on
the row of its user. -/
def protocol (verifyPassword : Text → Text → Bool) : Protocol Db Phase Action UUID where
  idle := .idle
  owner := Phase.owner
  advance := advance verifyPassword
  commit := commit

def initial (db : Db) : Prop := db.tokens = []

/-- Any number of transactions of any users, from a database without tokens. -/
def refreshMachine (τ : Type) [DecidableEq τ] (verifyPassword : Text → Text → Bool) :
    Machine (State τ Db Phase UUID) (Move τ Action) := machine (protocol verifyPassword) initial

structure DbInv (db : Db) : Prop where
  ids : (db.tokens.map (·.id)).Nodup
  revoked : ∀ r ∈ db.tokens, ∀ at', r.revokedAt = some at' → r.createdAt ≤ at'
  epoch_le : ∀ r ∈ db.tokens, r.epoch ≤ db.epoch r.userId
  epoch : ∀ r ∈ db.tokens, r.revokedAt = none → r.epoch = db.epoch r.userId
  root : ∀ r ∈ db.tokens, ∃ q ∈ db.tokens, q.id = r.lineage
  lineage : ∀ a ∈ db.tokens, ∀ b ∈ db.tokens, a.lineage = b.lineage → a.revokedAt = none →
    b.revokedAt = none → a = b
  parent : ∀ r ∈ db.tokens, ∀ p, r.parent = some p →
    ∃ q ∈ db.tokens, q.id = p ∧ q.revokedAt ≠ none
  successor : ∀ a ∈ db.tokens, ∀ b ∈ db.tokens, ∀ p, a.parent = some p → b.parent = some p → a = b

def Active (db : Db) (record : RefreshToken) (revokedAt : Instant) : Prop :=
  record ∈ db.tokens ∧ record.revokedAt = none ∧ record.createdAt ≤ revokedAt

/-- What a transaction has read still stands while it holds the user's lock. -/
def PhaseInv (db : Db) : Phase → Prop
  | .verified user epoch => epoch = db.epoch user.id
  | .issued token => token.revokedAt = none ∧ token.parent = none ∧ token.lineage = token.id ∧
      token.epoch = db.epoch token.userId
  | .loaded _ owner (some record) => record ∈ db.tokens ∧ record.userId = owner
  | .consumed record now => Active db record now
  | .rotated record now token => Active db record now ∧ token.revokedAt = none ∧
      token.parent = some record.id ∧ token.lineage = record.lineage ∧
      token.epoch = record.epoch ∧ token.userId = record.userId
  | .loggedOut owner (some (record, revokedAt)) => Active db record revokedAt ∧
      record.userId = owner
  | .changed user _ revoked _ => revoked = (db.tokens.filter fun r ↦
      r.userId = user.id ∧ r.revokedAt = none).map (·.id)
  | _ => True

/-- The two databases agree on all that the lock on a user's row protects. -/
def SameUser (userId : UUID) (db db' : Db) : Prop :=
  db'.epoch userId = db.epoch userId ∧
    (db'.tokens.filter fun r ↦ r.userId = userId) = db.tokens.filter fun r ↦ r.userId = userId

theorem SameUser.mem {userId : UUID} {db db' : Db} (h : SameUser userId db db')
    {r : RefreshToken} (hr : r.userId = userId) (hm : r ∈ db.tokens) : r ∈ db'.tokens := by
  have hf : r ∈ db.tokens.filter fun r ↦ r.userId = userId := by simp [hm, hr]
  rw [← h.2] at hf
  exact (List.mem_filter.mp hf).1

theorem SameUser.active {userId : UUID} {db db' : Db} (h : SameUser userId db db')
    {r : RefreshToken} {t : Instant} (hr : r.userId = userId) (ha : Active db r t) :
    Active db' r t := ⟨h.mem hr ha.1, ha.2⟩

theorem mem_revokeRows {db : Db} {rows : RefreshToken → Bool} {at' : RefreshToken → Instant}
    {r : RefreshToken} (h : r ∈ (db.revokeRows rows at').tokens) :
    ∃ q ∈ db.tokens, r = (if rows q then { q with revokedAt := some (at' q) } else q) ∧
      r.id = q.id ∧ r.userId = q.userId ∧ r.lineage = q.lineage ∧ r.parent = q.parent ∧
      r.epoch = q.epoch ∧ r.createdAt = q.createdAt ∧
      (r.revokedAt = none → rows q = false ∧ r = q) := by
  obtain ⟨q, hq, rfl⟩ := List.mem_map.mp h
  refine ⟨q, hq, rfl, ?_⟩
  by_cases hr : rows q = true <;> simp [hr]

theorem revokeRows_mem {db : Db} (rows : RefreshToken → Bool) (at' : RefreshToken → Instant)
    {q : RefreshToken} (h : q ∈ db.tokens) :
    ∃ r ∈ (db.revokeRows rows at').tokens, r.id = q.id ∧ r.userId = q.userId ∧
      (rows q = true → r.revokedAt = some (at' q)) ∧ (rows q = false → r = q) := by
  refine ⟨_, List.mem_map_of_mem h, ?_⟩
  by_cases hr : rows q = true <;> simp [hr]

theorem eq_of_id {db : Db} (hi : DbInv db) {a b : RefreshToken} (ha : a ∈ db.tokens)
    (hb : b ∈ db.tokens) (h : a.id = b.id) : a = b :=
  List.inj_on_of_nodup_map hi.ids ha hb h

theorem revokeRows_inv {db : Db} (hi : DbInv db) (rows : RefreshToken → Bool)
    (at' : RefreshToken → Instant)
    (h : ∀ r ∈ db.tokens, rows r = true → r.revokedAt = none ∧ r.createdAt ≤ at' r) :
    DbInv (db.revokeRows rows at') := by
  have hids : (db.revokeRows rows at').tokens.map (·.id) = db.tokens.map (·.id) := by
    simp only [Db.revokeRows, List.map_map]
    apply List.map_congr_left
    intro r _
    by_cases hr : rows r = true <;> simp [hr]
  refine ⟨hids ▸ hi.ids, fun r hr t ht ↦ ?_, fun r hr ↦ ?_, fun r hr hn ↦ ?_, fun r hr ↦ ?_,
    fun a ha b hb hl hna hnb ↦ ?_, fun r hr p hp ↦ ?_, fun a ha b hb p hap hbp ↦ ?_⟩
  · obtain ⟨q, hq, he, -, -, -, -, -, hc, -⟩ := mem_revokeRows hr
    by_cases hrow : rows q = true
    · rw [he, if_pos hrow, Option.some.injEq] at ht
      rw [hc, ← ht]
      exact (h q hq hrow).2
    · rw [he, if_neg hrow] at ht
      rw [hc]
      exact hi.revoked q hq t ht
  · obtain ⟨q, hq, -, -, hu, -, -, hepoch, -⟩ := mem_revokeRows hr
    rw [hu, hepoch]
    exact hi.epoch_le q hq
  · obtain ⟨q, hq, -, -, -, -, -, -, -, hnone⟩ := mem_revokeRows hr
    obtain ⟨-, rfl⟩ := hnone hn
    exact hi.epoch r hq hn
  · obtain ⟨q, hq, -, -, -, hlineage, -⟩ := mem_revokeRows hr
    obtain ⟨root, hroot, hid⟩ := hi.root q hq
    obtain ⟨root', hroot', hid', -⟩ := revokeRows_mem rows at' hroot
    exact ⟨root', hroot', by rw [hid', hid, hlineage]⟩
  · obtain ⟨qa, hqa, -, -, -, -, -, -, -, hna'⟩ := mem_revokeRows ha
    obtain ⟨qb, hqb, -, -, -, -, -, -, -, hnb'⟩ := mem_revokeRows hb
    obtain ⟨-, rfl⟩ := hna' hna
    obtain ⟨-, rfl⟩ := hnb' hnb
    exact hi.lineage a hqa b hqb hl hna hnb
  · obtain ⟨q, hq, -, -, -, -, hparent, -⟩ := mem_revokeRows hr
    obtain ⟨old, hold, hid, hrev⟩ := hi.parent q hq p (hparent ▸ hp)
    obtain ⟨old', hold', hid', -, hfalse⟩ := revokeRows_mem rows at' hold
    refine ⟨old', hold', hid'.trans hid, ?_⟩
    by_cases hrow : rows old = true
    · exact absurd (h old hold hrow).1 hrev
    · rw [hfalse.2 (by simpa using hrow)]
      exact hrev
  · obtain ⟨qa, hqa, hea, -, -, -, hpa, -⟩ := mem_revokeRows ha
    obtain ⟨qb, hqb, heb, -, -, -, hpb, -⟩ := mem_revokeRows hb
    have := hi.successor qa hqa qb hqb p (hpa ▸ hap) (hpb ▸ hbp)
    rw [hea, heb, this]

theorem insert_inv {db db' : Db} (hi : DbInv db) {token : RefreshToken}
    (h : db.insert token = some db') (hunrevoked : token.revokedAt = none)
    (hepoch : token.epoch = db.epoch token.userId)
    (hroot : token.lineage = token.id ∨ ∃ q ∈ db.tokens, q.id = token.lineage)
    (hlineage : ∀ r ∈ db.tokens, r.lineage = token.lineage → r.revokedAt ≠ none)
    (hparent : ∀ p, token.parent = some p →
      (∃ q ∈ db.tokens, q.id = p ∧ q.revokedAt ≠ none) ∧ ∀ r ∈ db.tokens, r.parent ≠ some p) :
    DbInv db' := by
  simp only [Db.insert, Option.ite_none_right_eq_some, Option.some.injEq] at h
  obtain ⟨hfresh, rfl⟩ := h
  have hmem (r : RefreshToken) : r ∈ db.tokens ++ [token] ↔ r ∈ db.tokens ∨ r = token := by simp
  refine ⟨?_, fun r hr t ht ↦ ?_, fun r hr ↦ ?_, fun r hr hn ↦ ?_, fun r hr ↦ ?_,
    fun a ha b hb hl hna hnb ↦ ?_, fun r hr p hp ↦ ?_, fun a ha b hb p hap hbp ↦ ?_⟩
  · rw [List.map_append, List.map_singleton]
    refine List.Nodup.append hi.ids (by simp) ?_
    intro i hm hs
    obtain ⟨r, hr, rfl⟩ := List.mem_map.mp hm
    exact (hfresh r hr).1 (List.mem_singleton.mp hs)
  · obtain hr | rfl := (hmem r).mp hr
    · exact hi.revoked r hr t ht
    · rw [hunrevoked] at ht
      cases ht
  · obtain hr | rfl := (hmem r).mp hr
    · exact hi.epoch_le r hr
    · exact hepoch.le
  · obtain hr | rfl := (hmem r).mp hr
    · exact hi.epoch r hr hn
    · exact hepoch
  · obtain hr | rfl := (hmem r).mp hr
    · obtain ⟨q, hq, hid⟩ := hi.root r hr
      exact ⟨q, (hmem q).mpr (.inl hq), hid⟩
    · obtain he | ⟨q, hq, hid⟩ := hroot
      · exact ⟨r, (hmem r).mpr (.inr rfl), he.symm⟩
      · exact ⟨q, (hmem q).mpr (.inl hq), hid⟩
  · obtain ha' | rfl := (hmem a).mp ha <;> obtain hb' | rfl := (hmem b).mp hb
    · exact hi.lineage a ha' b hb' hl hna hnb
    · exact absurd hna (hlineage a ha' hl)
    · exact absurd hnb (hlineage b hb' hl.symm)
    · rfl
  · obtain hr | rfl := (hmem r).mp hr
    · obtain ⟨q, hq, hid, hrev⟩ := hi.parent r hr p hp
      exact ⟨q, (hmem q).mpr (.inl hq), hid, hrev⟩
    · obtain ⟨⟨q, hq, hid, hrev⟩, -⟩ := hparent p hp
      exact ⟨q, (hmem q).mpr (.inl hq), hid, hrev⟩
  · obtain ha' | rfl := (hmem a).mp ha <;> obtain hb' | rfl := (hmem b).mp hb
    · exact hi.successor a ha' b hb' p hap hbp
    · exact absurd hap ((hparent p hbp).2 a ha')
    · exact absurd hbp ((hparent p hap).2 b hb')
    · rfl

theorem active_rowOf {db : Db} (hi : DbInv db) {record : RefreshToken} {t : Instant}
    (ha : Active db record t) : ∀ r ∈ db.tokens, rowOf record r = true →
      r.revokedAt = none ∧ r.createdAt ≤ t := by
  intro r hr hrow
  simp only [rowOf, Bool.decide_and, Bool.and_eq_true, decide_eq_true_eq] at hrow
  rw [eq_of_id hi hr ha.1 hrow.1]
  exact ha.2

theorem issued_inv {db db' : Db} (hi : DbInv db) {token : RefreshToken}
    (hp : PhaseInv db (.issued token)) (h : db.insert token = some db') : DbInv db' := by
  obtain ⟨hn, hpar, hl, he⟩ := hp
  have hfresh : ∀ r ∈ db.tokens, r.id ≠ token.id := by
    simp only [Db.insert, Option.ite_none_right_eq_some] at h
    exact fun r hr ↦ (h.1 r hr).1
  refine insert_inv hi h hn he (.inl hl) (fun r hr hlin ↦ ?_) (by simp [hpar])
  -- a lineage is named after a stored token, and this name is new
  obtain ⟨q, hq, hid⟩ := hi.root r hr
  exact absurd (hid.trans (hlin.trans hl)) (hfresh q hq)

theorem rotated_inv {db db' : Db} (hi : DbInv db) {record token : RefreshToken} {now : Instant}
    (hp : PhaseInv db (.rotated record now token))
    (h : (db.revokeRows (rowOf record) fun _ ↦ now).insert token = some db') : DbInv db' := by
  obtain ⟨ha, hn, hpar, hl, he, hu⟩ := hp
  have hrev := revokeRows_inv hi _ (fun _ ↦ now) (active_rowOf hi ha)
  have hrow : rowOf record record = true := by simp [rowOf]
  refine insert_inv hrev h hn ?_ (.inr ?_) (fun r hr hlin hr0 ↦ ?_) (fun p hp ↦ ⟨?_, fun r hr hrp ↦ ?_⟩)
  · rw [he, hi.epoch record ha.1 ha.2.1, hu]
    rfl
  · obtain ⟨q, hq, hid⟩ := hi.root record ha.1
    obtain ⟨q', hq', hid', -⟩ := revokeRows_mem (rowOf record) (fun _ ↦ now) hq
    exact ⟨q', hq', by rw [hid', hid, hl]⟩
  · obtain ⟨q, hq, -, -, -, hql, -, -, -, hnone⟩ := mem_revokeRows hr
    obtain ⟨hfalse, rfl⟩ := hnone hr0
    have := hi.lineage r hq record ha.1 (hlin.trans hl) hr0 ha.2.1
    rw [this, hrow] at hfalse
    cases hfalse
  · rw [hpar, Option.some.injEq] at hp
    obtain ⟨r, hr, hid, -, hset, -⟩ := revokeRows_mem (rowOf record) (fun _ ↦ now) ha.1
    exact ⟨r, hr, hid.trans hp, by simp [hset hrow]⟩
  · rw [hpar, Option.some.injEq] at hp
    obtain ⟨q, hq, -, -, -, -, hqp, -⟩ := mem_revokeRows hr
    obtain ⟨old, hold, hid, hrevoked⟩ := hi.parent q hq p (hqp ▸ hrp)
    rw [eq_of_id hi hold ha.1 (hid.trans hp.symm)] at hrevoked
    exact hrevoked ha.2.1

theorem changed_rows {db : Db} (hi : DbInv db) {user : User} {revoked : List UUID}
    (hp : revoked = (db.tokens.filter fun r ↦ r.userId = user.id ∧ r.revokedAt = none).map (·.id))
    {r : RefreshToken} (hr : r ∈ db.tokens) :
    decide (r.userId = user.id ∧ r.id ∈ revoked) = true ↔
      r.userId = user.id ∧ r.revokedAt = none := by
  rw [decide_eq_true_eq, hp]
  constructor
  · rintro ⟨hu, hm⟩
    obtain ⟨q, hq, hid⟩ := List.mem_map.mp hm
    obtain ⟨hq, hcond⟩ := List.mem_filter.mp hq
    rw [eq_of_id hi hq hr hid] at hcond
    exact ⟨hu, (of_decide_eq_true hcond).2⟩
  · rintro ⟨hu, hn⟩
    exact ⟨hu, List.mem_map.mpr ⟨r, List.mem_filter.mpr ⟨hr, by simp [hu, hn]⟩, rfl⟩⟩

theorem changed_revoked {db : Db} (hi : DbInv db) {user : User} {revoked : List UUID}
    {now : Instant}
    (hp : revoked = (db.tokens.filter fun r ↦ r.userId = user.id ∧ r.revokedAt = none).map (·.id))
    {r : RefreshToken}
    (hr : r ∈ (db.revokeRows (fun r ↦ r.userId = user.id ∧ r.id ∈ revoked)
      fun r ↦ max now r.createdAt).tokens) (hu : r.userId = user.id) : r.revokedAt ≠ none := by
  intro hn
  obtain ⟨q, hq, -, -, -, -, -, -, -, hnone⟩ := mem_revokeRows hr
  obtain ⟨hfalse, rfl⟩ := hnone hn
  rw [(changed_rows hi hp hq).mpr ⟨hu, hn⟩] at hfalse
  cases hfalse

theorem changed_inv {db : Db} (hi : DbInv db) {user : User} {hash : Text} {revoked : List UUID}
    {now : Instant} (hp : PhaseInv db (.changed user hash revoked now)) :
    DbInv (setPassword (db.revokeRows (fun r ↦ r.userId = user.id ∧ r.id ∈ revoked)
      fun r ↦ max now r.createdAt) user.id hash) := by
  have hrev := revokeRows_inv hi
    (fun r ↦ r.userId = user.id ∧ r.id ∈ revoked) (fun r ↦ max now r.createdAt)
    fun r hr hrow ↦ ⟨((changed_rows hi hp hr).mp hrow).2, le_max_right _ _⟩
  refine ⟨hrev.ids, hrev.revoked, fun r hr ↦ ?_, fun r hr hn ↦ ?_, hrev.root, hrev.lineage,
    hrev.parent, hrev.successor⟩
  · have := hrev.epoch_le r hr
    by_cases hu : r.userId = user.id
    · simp only [setPassword, hu, Function.update_self]
      rw [hu] at this
      exact this.trans (Nat.le_succ _)
    · simpa only [setPassword, Function.update_of_ne hu] using this
  · by_cases hu : r.userId = user.id
    · exact absurd hn (changed_revoked hi hp hr hu)
    · simpa only [setPassword, Function.update_of_ne hu] using hrev.epoch r hr hn

theorem commit_inv {db db' : Db} {p : Phase} (hi : DbInv db) (hp : PhaseInv db p)
    (h : commit db p = some db') : DbInv db' := by
  cases p with
  | issued token => exact issued_inv hi hp h
  | rotated record now token => exact rotated_inv hi hp h
  | loggedOut owner revoked =>
    cases revoked with
    | none => cases h; exact hi
    | some r =>
      cases h
      exact revokeRows_inv hi _ _ (active_rowOf hi hp.1)
  | changed user hash revoked now => cases h; exact changed_inv hi hp
  | _ => cases h

theorem getByHash_mem {db : Db} {hash : Text} {owner : UUID} {r : RefreshToken}
    (h : getByHash db hash owner = some r) : r ∈ db.tokens ∧ r.userId = owner := by
  have hc := List.find?_some h
  exact ⟨List.mem_of_find?_eq_some h, (of_decide_eq_true hc).2⟩

theorem advance_inv {verify : Text → Text → Bool} {db : Db} {p p' : Phase} {a : Action}
    (hp : PhaseInv db p) (h : advance verify db p a = some p') : PhaseInv db p' := by
  unfold advance at h
  split at h
  case h_1 =>
    split at h
    · obtain ⟨-, h⟩ := Option.ite_none_right_eq_some.mp h
      cases h
      rfl
    · cases h
  case h_2 =>
    obtain ⟨-, h⟩ := Option.ite_none_right_eq_some.mp h
    cases h
    exact ⟨rfl, rfl, rfl, hp⟩
  case h_3 =>
    obtain ⟨r, -, rfl⟩ := Option.map_eq_some_iff.mp h
    trivial
  case h_4 =>
    obtain ⟨-, h⟩ := Option.ite_none_right_eq_some.mp h
    cases h
    trivial
  case h_5 use hash owner =>
    cases h
    cases hr : getByHash db hash owner with
    | none => trivial
    | some r => exact getByHash_mem hr
  case h_6 =>
    obtain ⟨⟨hn, hc, -⟩, h⟩ := Option.ite_none_right_eq_some.mp h
    cases h
    exact ⟨hp.1, hn, hc⟩
  case h_7 =>
    obtain ⟨-, h⟩ := Option.ite_none_right_eq_some.mp h
    cases h
    exact ⟨hp, rfl, rfl, rfl, rfl, rfl⟩
  case h_8 =>
    cases h
    trivial
  case h_9 =>
    split at h
    · cases h
      trivial
    · next hn =>
      obtain ⟨-, h⟩ := Option.ite_none_right_eq_some.mp h
      cases h
      exact ⟨⟨hp.1, by simpa using hn, le_max_right _ _⟩, hp.2⟩
  case h_10 =>
    split at h
    · obtain ⟨-, h⟩ := Option.ite_none_right_eq_some.mp h
      cases h
      trivial
    · cases h
  case h_11 =>
    cases h
    trivial
  case h_12 =>
    cases h
    rfl
  case h_13 => cases h

theorem sameUser_revokeRows {db : Db} {rows : RefreshToken → Bool} {at' : RefreshToken → Instant}
    {userId : UUID} (h : ∀ r ∈ db.tokens, rows r = true → r.userId ≠ userId) :
    SameUser userId db (db.revokeRows rows at') := by
  refine ⟨rfl, ?_⟩
  simp only [Db.revokeRows]
  rw [List.filter_map]
  have hkeep : ∀ r ∈ db.tokens.filter ((fun r ↦ decide (r.userId = userId)) ∘ fun r ↦
      if rows r = true then { r with revokedAt := some (at' r) } else r),
      (if rows r = true then { r with revokedAt := some (at' r) } else r) = r := by
    intro r hr
    obtain ⟨hm, hu⟩ := List.mem_filter.mp hr
    by_cases hrow : rows r = true
    · exact absurd (by simpa [hrow] using hu) (h r hm hrow)
    · exact if_neg hrow
  rw [List.map_congr_left hkeep, List.map_id']
  apply List.filter_congr
  intro r _
  by_cases hr : rows r = true <;> simp [hr]

theorem sameUser_insert {db db' : Db} {token : RefreshToken} {userId : UUID}
    (h : db.insert token = some db') (hu : token.userId ≠ userId) : SameUser userId db db' := by
  simp only [Db.insert, Option.ite_none_right_eq_some, Option.some.injEq] at h
  obtain ⟨-, rfl⟩ := h
  exact ⟨rfl, by simp [hu]⟩

theorem SameUser.trans {userId : UUID} {a b c : Db} (hab : SameUser userId a b)
    (hbc : SameUser userId b c) : SameUser userId a c :=
  ⟨hbc.1.trans hab.1, hbc.2.trans hab.2⟩

theorem commit_frame {db db' : Db} {p : Phase} (hp : PhaseInv db p) (h : commit db p = some db') :
    ∃ k, p.owner = some k ∧ ∀ k', k' ≠ k → SameUser k' db db' := by
  have hrow {record : RefreshToken} {t : Instant} {k : UUID} (hk : k ≠ record.userId) :
      SameUser k db (db.revokeRows (rowOf record) fun _ ↦ t) := by
    apply sameUser_revokeRows
    intro r _ hr
    simp only [rowOf, Bool.decide_and, Bool.and_eq_true, decide_eq_true_eq] at hr
    rw [hr.2]
    exact hk.symm
  cases p with
  | issued token => exact ⟨token.userId, rfl, fun k hk ↦ sameUser_insert h hk.symm⟩
  | rotated record now token =>
    refine ⟨record.userId, rfl, fun k hk ↦ (hrow hk).trans (sameUser_insert h ?_)⟩
    rw [hp.2.2.2.2.2]
    exact hk.symm
  | loggedOut owner revoked =>
    refine ⟨owner, rfl, fun k hk ↦ ?_⟩
    cases revoked with
    | none => cases h; exact ⟨rfl, rfl⟩
    | some r =>
      cases h
      exact hrow (by rw [hp.2]; exact hk)
  | changed user hash revoked now =>
    cases h
    refine ⟨user.id, rfl, fun k hk ↦ ?_⟩
    have hrev : SameUser k db (db.revokeRows (fun r ↦ r.userId = user.id ∧ r.id ∈ revoked)
        fun r ↦ max now r.createdAt) := by
      apply sameUser_revokeRows
      intro r _ hr
      rw [(of_decide_eq_true hr).1]
      exact hk.symm
    exact ⟨by simp [setPassword, Function.update_of_ne hk, Db.revokeRows], hrev.2⟩
  | _ => cases h

theorem phaseInv_same {db db' : Db} {p : Phase} {k : UUID} (ho : p.owner = some k)
    (hs : SameUser k db db') (hp : PhaseInv db p) : PhaseInv db' p := by
  cases p with
  | verified user epoch =>
    cases ho
    exact hp.trans hs.1.symm
  | issued token =>
    cases ho
    exact ⟨hp.1, hp.2.1, hp.2.2.1, hp.2.2.2.trans hs.1.symm⟩
  | loaded use owner record =>
    cases ho
    cases record with
    | none => trivial
    | some r => exact ⟨hs.mem hp.2 hp.1, hp.2⟩
  | consumed record now =>
    cases ho
    exact hs.active rfl hp
  | rotated record now token =>
    cases ho
    exact ⟨hs.active rfl hp.1, hp.2⟩
  | loggedOut owner revoked =>
    cases ho
    cases revoked with
    | none => trivial
    | some r => exact ⟨hs.active hp.2 hp.1, hp.2⟩
  | changed user hash revoked now =>
    cases ho
    have hf (d : Db) : (d.tokens.filter fun r ↦ r.userId = user.id ∧ r.revokedAt = none) =
        (d.tokens.filter fun r ↦ r.userId = user.id).filter fun r ↦ r.revokedAt = none := by
      rw [List.filter_filter]
      apply List.filter_congr
      intro r _
      simp [Bool.and_comm]
    rw [PhaseInv, hf, hs.2, ← hf]
    exact hp
  | _ => trivial

theorem sound (verify : Text → Text → Bool) :
    Sound (protocol verify) DbInv PhaseInv SameUser where
  idle _ := trivial
  owner_idle := rfl
  advance _ hp h := advance_inv hp h
  commit hi hp h := commit_inv hi hp h
  frame hp h := commit_frame hp h
  unlocked {_ _ p} _ _ := by cases p <;> trivial
  same ho hs hp := phaseInv_same ho hs hp

theorem initial_inv {db : Db} (h : initial db) : DbInv db := by
  have hempty : db.tokens = [] := h
  constructor <;> simp [hempty]

def Grows (db db' : Db) : Prop :=
  (∀ u, db.epoch u ≤ db'.epoch u) ∧ ∀ a ∈ db.tokens, ∃ a' ∈ db'.tokens, a'.id = a.id ∧
    a'.userId = a.userId ∧ ∀ t, a.revokedAt = some t → a'.revokedAt = some t

theorem Grows.refl (db : Db) : Grows db db :=
  ⟨fun _ ↦ le_rfl, fun a ha ↦ ⟨a, ha, rfl, rfl, fun _ h ↦ h⟩⟩

theorem Grows.trans {a b c : Db} (hab : Grows a b) (hbc : Grows b c) : Grows a c := by
  refine ⟨fun u ↦ (hab.1 u).trans (hbc.1 u), fun r hr ↦ ?_⟩
  obtain ⟨r', hr', hid, hu, hrev⟩ := hab.2 r hr
  obtain ⟨r'', hr'', hid', hu', hrev'⟩ := hbc.2 r' hr'
  exact ⟨r'', hr'', hid'.trans hid, hu'.trans hu, fun t ht ↦ hrev' t (hrev t ht)⟩

theorem grows_revokeRows {db : Db} (rows : RefreshToken → Bool) (at' : RefreshToken → Instant)
    (h : ∀ r ∈ db.tokens, rows r = true → r.revokedAt = none) :
    Grows db (db.revokeRows rows at') := by
  refine ⟨fun _ ↦ le_rfl, fun a ha ↦ ?_⟩
  obtain ⟨r, hr, hid, hu, -, hfalse⟩ := revokeRows_mem rows at' ha
  refine ⟨r, hr, hid, hu, fun t ht ↦ ?_⟩
  by_cases hrow : rows a = true
  · rw [h a ha hrow] at ht
    cases ht
  · rw [hfalse (by simpa using hrow)]
    exact ht

theorem grows_insert {db db' : Db} {token : RefreshToken} (h : db.insert token = some db') :
    Grows db db' := by
  simp only [Db.insert, Option.ite_none_right_eq_some, Option.some.injEq] at h
  obtain ⟨-, rfl⟩ := h
  exact ⟨fun _ ↦ le_rfl, fun a ha ↦ ⟨a, List.mem_append_left _ ha, rfl, rfl, fun _ h ↦ h⟩⟩

theorem commit_grows {db db' : Db} {p : Phase} (hi : DbInv db) (hp : PhaseInv db p)
    (h : commit db p = some db') : Grows db db' := by
  cases p with
  | issued token => exact grows_insert h
  | rotated record now token =>
    exact (grows_revokeRows _ _ fun r hr hrow ↦ (active_rowOf hi hp.1 r hr hrow).1).trans
      (grows_insert h)
  | loggedOut owner revoked =>
    cases revoked with
    | none => cases h; exact Grows.refl db
    | some r =>
      cases h
      exact grows_revokeRows _ _ fun r hr hrow ↦ (active_rowOf hi hp.1 r hr hrow).1
  | changed user hash revoked now =>
    cases h
    have hrev := grows_revokeRows (fun r ↦ r.userId = user.id ∧ r.id ∈ revoked)
      (fun r ↦ max now r.createdAt) fun r hr hrow ↦ ((changed_rows hi hp hr).mp hrow).2
    refine ⟨fun u ↦ ?_, hrev.2⟩
    by_cases hu : u = user.id
    · subst hu
      simp [setPassword, Db.revokeRows]
    · simp [setPassword, Db.revokeRows, Function.update_of_ne hu]
  | _ => cases h

section Safety

variable {τ : Type} [DecidableEq τ] {verify : Text → Text → Bool}

theorem inv_of_reachable {s : State τ Db Phase UUID} (h : (refreshMachine τ verify).Reachable s) :
    Inv (protocol verify) DbInv PhaseInv s :=
  inv_reachable (sound verify) (fun _ ↦ initial_inv) h

theorem leads_grows {s s' : State τ Db Phase UUID} (h : (refreshMachine τ verify).Reachable s)
    (hl : (refreshMachine τ verify).Leads s s') : Grows s.db s'.db := by
  refine Machine.Leads.related (fun s s' ↦ Grows s.db s'.db) (fun s ↦ Grows.refl s.db)
    (fun _ _ _ ↦ Grows.trans) (fun s m s' hs hstep ↦ ?_) h hl
  have hi := inv_of_reachable hs
  obtain hdb | ⟨t, -, hc⟩ := db_step hstep
  · rw [hdb]
    exact Grows.refl s.db
  · exact commit_grows hi.db (hi.phase t) hc

theorem password_change_revokes {s s₁ s₂ : State τ Db Phase UUID}
    (h : (refreshMachine τ verify).Reachable s) {t : τ} {user : User} {hash : Text}
    {revoked : List UUID} {now : Instant} (hphase : s.phase t = .changed user hash revoked now)
    (hc : (refreshMachine τ verify).step s (.commit t) = some s₁)
    (hl : (refreshMachine τ verify).Leads s₁ s₂) :
    (∀ r ∈ s₁.db.tokens, r.userId = user.id → r.revokedAt ≠ none) ∧
      ∀ r ∈ s₂.db.tokens, r.userId = user.id → r.epoch ≤ s.db.epoch user.id →
        r.revokedAt ≠ none := by
  have hi := inv_of_reachable h
  have h₁ := h.next hc
  have hdb : commit s.db (s.phase t) = some s₁.db := by
    obtain ⟨db, hdb, rfl⟩ := Option.map_eq_some_iff.mp hc
    exact hdb
  have hp : PhaseInv s.db (.changed user hash revoked now) := hphase ▸ hi.phase t
  rw [hphase, commit, Option.some.injEq] at hdb
  have hepoch : s₁.db.epoch user.id = s.db.epoch user.id + 1 := by
    rw [← hdb]
    simp [setPassword, Db.revokeRows]
  refine ⟨fun r hr hu ↦ ?_, fun r hr hu hle hn ↦ ?_⟩
  · rw [← hdb] at hr
    exact changed_revoked hi.db hp hr hu
  · have he := (inv_of_reachable (Machine.Leads.reachable h₁ hl)).db.epoch r hr hn
    have hgrows := (leads_grows h₁ hl).1 user.id
    rw [hu] at he
    omega

/-- Rotations are unique, lineages have one active token at most, revocations
stay and are dated after the creation, and password changes end all tokens. -/
theorem refresh_tokens_safe {s : State τ Db Phase UUID}
    (h : (refreshMachine τ verify).Reachable s) :
    (∀ a ∈ s.db.tokens, ∀ b ∈ s.db.tokens, ∀ p, a.parent = some p → b.parent = some p → a = b) ∧
    (∀ a ∈ s.db.tokens, ∀ b ∈ s.db.tokens, a.lineage = b.lineage → a.revokedAt = none →
      b.revokedAt = none → a = b) ∧
    (∀ a ∈ s.db.tokens, ∀ t, a.revokedAt = some t → a.createdAt ≤ t) ∧
    (∀ s', (refreshMachine τ verify).Leads s s' → ∀ a ∈ s.db.tokens, ∀ t, a.revokedAt = some t →
      ∃ a' ∈ s'.db.tokens, a'.id = a.id ∧ a'.revokedAt = some t) ∧
    ∀ t user hash revoked now s₁ s₂, s.phase t = .changed user hash revoked now →
      (refreshMachine τ verify).step s (.commit t) = some s₁ →
      (refreshMachine τ verify).Leads s₁ s₂ →
      (∀ r ∈ s₁.db.tokens, r.userId = user.id → r.revokedAt ≠ none) ∧
        ∀ r ∈ s₂.db.tokens, r.userId = user.id → r.epoch ≤ s.db.epoch user.id →
          r.revokedAt ≠ none := by
  have hi := (inv_of_reachable h).db
  refine ⟨hi.successor, hi.lineage, hi.revoked, fun s' hl a ha t ht ↦ ?_, ?_⟩
  · obtain ⟨a', ha', hid, -, hrev⟩ := (leads_grows h hl).2 a ha
    exact ⟨a', ha', hid, hrev t ht⟩
  · intro t user hash revoked now s₁ s₂ hphase hc hl
    exact password_change_revokes h hphase hc hl

end Safety

def sampleDb : Db := ⟨[⟨sampleId 1, ['e'], ['h']⟩], [], fun _ ↦ 0⟩

def sampleStart : State ℕ Db Phase UUID := ⟨sampleDb, fun _ ↦ .idle, fun _ ↦ none⟩

def loginAndRotate : List (Move ℕ Action) :=
  [.advance 0 (.login ['e'] ['p']), .advance 0 (.issue (sampleId 2) ['a'] 10), .commit 0,
    .advance 1 (.locate .rotate ['a']), .advance 1 .lockOwner, .advance 1 .load,
    .advance 1 (.consume 20), .advance 1 (.replace (sampleId 3) ['b']), .commit 1]

theorem refresh_tokens_safe_sample :
    ∃ s, (refreshMachine ℕ fun _ _ ↦ true).Reachable s ∧ s.db.tokens.length = 2 ∧
      ∀ a ∈ s.db.tokens, ∀ b ∈ s.db.tokens, a.lineage = b.lineage → a.revokedAt = none →
        b.revokedAt = none → a = b := by
  have hrun : ((refreshMachine ℕ fun _ _ ↦ true).exec sampleStart loginAndRotate).map
      (fun s ↦ s.db.tokens.length) = some 2 := by decide
  obtain ⟨s, hs, hlen⟩ := Option.map_eq_some_iff.mp hrun
  have hstart : (refreshMachine ℕ fun _ _ ↦ true).init sampleStart :=
    ⟨rfl, fun _ ↦ rfl, fun _ ↦ rfl⟩
  have hr := (Machine.Reachable.start hstart).exec hs
  exact ⟨s, hr, hlen, (refresh_tokens_safe hr).2.1⟩

end LearningTasks.Services.RefreshTokens
