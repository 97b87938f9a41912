import LearningTasks.Library.KeyLocks
import LearningTasks.Library.Strings
import LearningTasks.Schemas.Scalars

namespace LearningTasks.Services.Accounts

open Library.Strings Library.Transition Library.KeyLocks Schemas.Scalars

def maxEmailLength : ℕ := 254

def minPasswordLength : ℕ := 12

def maxPasswordLength : ℕ := 128

/-- The packages that check addresses and hash passwords, each hash with a salt of its own,
and the case folding of strings. -/
structure AccountHost where
  validateEmail : Text → Option Text
  casefold : Text → Text
  hash : Text → ℕ → Option Text
  verify : Text → Text → Bool

structure User where
  id : UUID
  email : Text
  passwordHash : Text
  createdAt : Datetime
  updatedAt : Datetime
  deriving DecidableEq

structure PublicUser where
  id : UUID
  email : Text
  createdAt : Datetime
  updatedAt : Datetime
  deriving DecidableEq

structure UserRegistrationRequest where
  email : Text
  password : Text

structure UserLoginRequest where
  email : Text
  password : Text

structure PasswordChangeRequest where
  currentPassword : Text
  newPassword : Text

def validatePassword (password : Text) : Option Text :=
  if ¬ (minPasswordLength ≤ password.length ∧ password.length ≤ maxPasswordLength) then none
  else if password.all isSpace then none
  else some password

section

variable (host : AccountHost)

def normalizeEmail (rawEmail : Text) : Option Text :=
  if strip rawEmail = [] then none
  else (host.validateEmail (strip rawEmail)).bind fun normalized ↦
    if maxEmailLength < (host.casefold normalized).length then none
    else some (host.casefold normalized)

def hashPassword (password : Text) (salt : ℕ) : Option Text :=
  (validatePassword password).bind fun accepted ↦ host.hash accepted salt

def UserRegistrationRequest.validate (email password : Text) : Option UserRegistrationRequest := do
  let email ← normalizeEmail host email
  let _ ← validatePassword password
  return ⟨email, password⟩

def UserLoginRequest.validate (email password : Text) : Option UserLoginRequest :=
  (normalizeEmail host email).bind fun email ↦
    if password.length < 1 ∨ 128 < password.length then none else some ⟨email, password⟩

/-- The lengths of both fields, the policy of the new password, and that it is a new one. -/
def PasswordChangeRequest.validate (currentPassword newPassword : Text) :
    Option PasswordChangeRequest :=
  if 1 ≤ currentPassword.length ∧ currentPassword.length ≤ 128 ∧ 12 ≤ newPassword.length ∧
      newPassword.length ≤ 128 then
    (validatePassword newPassword).bind fun _ ↦
      if currentPassword = newPassword then none else some ⟨currentPassword, newPassword⟩
  else none

def User.public (user : User) : Option PublicUser :=
  (normalizeEmail host user.email).map fun email ↦ ⟨user.id, email, user.createdAt, user.updatedAt⟩

end

structure Db where
  users : List User

def Db.getByEmail (db : Db) (email : Text) : Option User := db.users.find? fun u ↦ u.email = email

def Db.getById (db : Db) (userId : UUID) : Option User := db.users.find? fun u ↦ u.id = userId

def textColumn (width : ℕ) (value : Text) : Bool := value.length ≤ width && storable value

inductive Key
  | row (id : UUID)
  | email (email : Text)
  deriving DecidableEq

/-- How far a request has come: a registration, one of a user that its token names, or a login. -/
inductive Phase
  | idle
  | available (email password : Text)
  | created (row : User) (password : Text)
  | viewed (user : User)
  | unchanged (user : User)
  | vacant (user : User) (email : Text)
  | moved (user : User) (email : Text)
  | reauthenticated (user : User) (currentPassword newPassword : Text)
  | rehashed (user : User) (currentPassword newPassword passwordHash : Text) (now : Datetime)
  | verified (user : User) (password : Text)

inductive Action
  | register (email password : Text)
  | create (id : UUID) (salt : ℕ) (now : Datetime)
  | view (userId : UUID)
  | check (email : Text)
  | move
  | reauthenticate (currentPassword newPassword : Text)
  | rehash (salt : ℕ) (now : Datetime)
  | login (email password : Text)

/-- A row that is locked or has been written, and the entry of an email that was written. -/
def Phase.holds : Phase → List Key
  | .created row _ => [.row row.id, .email row.email]
  | .moved user email => [.row user.id, .email email]
  | .reauthenticated user _ _ | .rehashed user _ _ _ _ | .verified user _ => [.row user.id]
  | _ => []

section

variable (host : AccountHost)

/-- The statements of the requests up to their commits. A request that is refused or whose
statement raises has no next phase: its transaction can only be rolled back. -/
def advance (db : Db) : Phase → Action → Option Phase
  | .idle, .register email password => do
    let registration ← UserRegistrationRequest.validate host email password
    let canonicalEmail ← normalizeEmail host registration.email
    if (db.getByEmail canonicalEmail).isSome then none
    else some (.available canonicalEmail registration.password)
  | .available email password, .create id salt now => do
    let acceptedPassword ← validatePassword password
    let passwordHash ← hashPassword host acceptedPassword salt
    if (textColumn 254 email ∧ textColumn 255 passwordHash) ∧
        ∀ u ∈ db.users, u.id ≠ id ∧ u.email ≠ email then
      (User.public host ⟨id, email, passwordHash, now, now⟩).map fun _ ↦
        .created ⟨id, email, passwordHash, now, now⟩ password
    else none
  | .idle, .view userId => (db.getById userId).map .viewed
  | .viewed user, .check email => do
    let email ← normalizeEmail host email
    if email = user.email then (user.public host).map fun _ ↦ .unchanged user
    else if (db.getByEmail email).all fun existing ↦ existing.id = user.id then
      some (.vacant user email)
    else none
  | .vacant user email, .move =>
    if textColumn 254 email ∧ (db.getById user.id).isSome ∧
        ∀ u ∈ db.users, u.email = email → u.id = user.id then
      (User.public host { user with email := email }).map fun _ ↦ .moved user email
    else none
  | .viewed viewer, .reauthenticate currentPassword newPassword => do
    let credentials ← PasswordChangeRequest.validate currentPassword newPassword
    let user ← db.getById viewer.id
    if host.verify credentials.currentPassword user.passwordHash then
      some (.reauthenticated user credentials.currentPassword credentials.newPassword)
    else none
  | .reauthenticated user currentPassword newPassword, .rehash salt now => do
    let replacement ← hashPassword host newPassword salt
    if textColumn 255 replacement then
      some (.rehashed user currentPassword newPassword replacement now)
    else none
  | .idle, .login email password => do
    let credentials ← UserLoginRequest.validate host email password
    let canonicalEmail ← normalizeEmail host credentials.email
    let user ← db.getByEmail canonicalEmail
    if host.verify credentials.password user.passwordHash then
      some (.verified user credentials.password)
    else none
  | _, _ => none

def Db.update (db : Db) (userId : UUID) (write : User → User) : Db :=
  ⟨db.users.map fun u ↦ if u.id = userId then write u else u⟩

def setEmail (email : Text) (user : User) : User := { user with email := email }

def setPassword (passwordHash : Text) (updatedAt : Datetime) (user : User) : User :=
  { user with passwordHash := passwordHash, updatedAt := updatedAt }

/-- The users once a request has committed. An UPDATE writes the columns that changed to the
row as it is then, not as it was read. -/
def commit (db : Db) : Phase → Option Db
  | .created row _ => some ⟨db.users ++ [row]⟩
  | .moved user email => some (db.update user.id (setEmail email))
  | .rehashed user _ _ passwordHash now => some (db.update user.id (setPassword passwordHash now))
  | .verified _ _ => some db
  | _ => none

def protocol : Protocol Db Phase Action Key where
  idle := .idle
  holds := Phase.holds
  advance := advance host
  commit := commit

def initial (db : Db) : Prop := db.users = []

def accountMachine (τ : Type) [DecidableEq τ] : Machine (State τ Db Phase Key) (Move τ Action) :=
  machine (protocol host) initial

end

structure Proper (host : AccountHost) (u : User) : Prop where
  canonical : ∃ rawEmail, normalizeEmail host rawEmail = some u.email
  hashed : ∃ password salt, hashPassword host password salt = some u.passwordHash
  shown : (u.public host).isSome
  columns : textColumn 254 u.email ∧ textColumn 255 u.passwordHash

structure Sane (host : AccountHost) (db : Db) : Prop where
  ids : (db.users.map User.id).Nodup
  emails : (db.users.map User.email).Nodup
  proper : ∀ u ∈ db.users, Proper host u

def Later (db db' : Db) : Prop :=
  ∀ u ∈ db.users, ∃ u' ∈ db'.users, u'.id = u.id ∧ u'.createdAt = u.createdAt

/-- What a lock keeps from others: changes of a row, and further rows with an email. -/
def Same : Key → Db → Db → Prop
  | .row id, db, db' => ∀ u, u.id = id → (u ∈ db.users ↔ u ∈ db'.users)
  | .email email, db, db' => ∀ u' ∈ db'.users, u'.email = email →
      ∃ u ∈ db.users, u.id = u'.id ∧ u.email = email

def Known (db : Db) (id : UUID) : Prop := ∃ u ∈ db.users, u.id = id

/-- An email that can be stored: one that was normalised and can be again. -/
structure Storable (host : AccountHost) (email : Text) : Prop where
  canonical : ∃ rawEmail, normalizeEmail host rawEmail = some email
  shown : (normalizeEmail host email).isSome
  column : textColumn 254 email

def PhaseInv (host : AccountHost) (db : Db) : Phase → Prop
  | .idle => True
  | .available email _ => ∃ rawEmail, normalizeEmail host rawEmail = some email
  | .created row password => Proper host row ∧
      (∃ salt, hashPassword host password salt = some row.passwordHash) ∧
      ∀ u ∈ db.users, u.id ≠ row.id ∧ u.email ≠ row.email
  | .viewed user | .unchanged user => Known db user.id
  | .vacant user email => Known db user.id ∧ ∃ rawEmail, normalizeEmail host rawEmail = some email
  | .moved user email => Known db user.id ∧ Storable host email ∧
      ∀ u ∈ db.users, u.email = email → u.id = user.id
  | .reauthenticated user currentPassword _ => user ∈ db.users ∧
      host.verify currentPassword user.passwordHash
  | .rehashed user currentPassword newPassword passwordHash _ => user ∈ db.users ∧
      host.verify currentPassword user.passwordHash ∧
      (∃ salt, hashPassword host newPassword salt = some passwordHash) ∧
      textColumn 255 passwordHash
  | .verified user password => user ∈ db.users ∧ host.verify password user.passwordHash

theorem validatePassword_some {password accepted : Text}
    (h : validatePassword password = some accepted) : accepted = password := by
  unfold validatePassword at h
  split_ifs at h
  exact (Option.some.inj h).symm

theorem getById_some {db : Db} {id : UUID} {u : User} (h : db.getById id = some u) :
    u ∈ db.users ∧ u.id = id := by
  have hid := List.find?_some h
  exact ⟨List.mem_of_find?_eq_some h, of_decide_eq_true hid⟩

theorem getByEmail_some {db : Db} {email : Text} {u : User} (h : db.getByEmail email = some u) :
    u ∈ db.users ∧ u.email = email := by
  have hemail := List.find?_some h
  exact ⟨List.mem_of_find?_eq_some h, of_decide_eq_true hemail⟩

section

variable {host : AccountHost} {db db' : Db}

theorem public_isSome (u : User) : (u.public host).isSome = (normalizeEmail host u.email).isSome :=
  Option.isSome_map

theorem advance_inv {p p' : Phase} {a : Action} (hp : PhaseInv host db p)
    (h : advance host db p a = some p') : PhaseInv host db p' := by
  unfold advance at h
  split at h
  · next email password =>
    obtain ⟨registration, -, h⟩ := Option.bind_eq_some_iff.mp h
    obtain ⟨canonicalEmail, hemail, h⟩ := Option.bind_eq_some_iff.mp h
    split at h
    · cases h
    · cases h
      exact ⟨registration.email, hemail⟩
  · next email password id salt now =>
    obtain ⟨accepted, haccepted, h⟩ := Option.bind_eq_some_iff.mp h
    obtain ⟨passwordHash, hhash, h⟩ := Option.bind_eq_some_iff.mp h
    split at h
    · next hinsert =>
      obtain ⟨hcolumns, hfresh⟩ := hinsert
      obtain ⟨shown, hshown, rfl⟩ := Option.map_eq_some_iff.mp h
      obtain rfl := validatePassword_some haccepted
      exact ⟨⟨hp, ⟨accepted, salt, hhash⟩, Option.isSome_of_eq_some hshown, hcolumns⟩,
        ⟨salt, hhash⟩, hfresh⟩
    · cases h
  · next userId =>
    obtain ⟨user, huser, rfl⟩ := Option.map_eq_some_iff.mp h
    exact ⟨user, (getById_some huser).1, rfl⟩
  · next user email =>
    obtain ⟨canonicalEmail, hemail, h⟩ := Option.bind_eq_some_iff.mp h
    split at h
    · obtain ⟨shown, -, rfl⟩ := Option.map_eq_some_iff.mp h
      exact hp
    · split at h
      · cases h
        exact ⟨hp, email, hemail⟩
      · cases h
  · next user email =>
    split at h
    · next hupdate =>
      obtain ⟨hcolumn, -, hunique⟩ := hupdate
      obtain ⟨shown, hshown, rfl⟩ := Option.map_eq_some_iff.mp h
      have hsome : (User.public host { user with email := email }).isSome :=
        Option.isSome_of_eq_some hshown
      rw [public_isSome] at hsome
      exact ⟨hp.1, ⟨hp.2, hsome, hcolumn⟩, hunique⟩
    · cases h
  · next viewer currentPassword newPassword =>
    obtain ⟨credentials, -, h⟩ := Option.bind_eq_some_iff.mp h
    obtain ⟨user, huser, h⟩ := Option.bind_eq_some_iff.mp h
    split at h
    · next hverify =>
      cases h
      exact ⟨(getById_some huser).1, hverify⟩
    · cases h
  · next user currentPassword newPassword salt now =>
    obtain ⟨replacement, hreplacement, h⟩ := Option.bind_eq_some_iff.mp h
    split at h
    · next hcolumn =>
      cases h
      exact ⟨hp.1, hp.2, ⟨salt, hreplacement⟩, hcolumn⟩
    · cases h
  · next email password =>
    obtain ⟨credentials, -, h⟩ := Option.bind_eq_some_iff.mp h
    obtain ⟨canonicalEmail, -, h⟩ := Option.bind_eq_some_iff.mp h
    obtain ⟨user, huser, h⟩ := Option.bind_eq_some_iff.mp h
    split at h
    · next hverify =>
      cases h
      exact ⟨(getByEmail_some huser).1, hverify⟩
    · cases h
  · cases h

theorem commit_cases {p : Phase} (h : commit db p = some db') :
    (∃ row password, p = .created row password ∧ db' = ⟨db.users ++ [row]⟩) ∨
    (∃ user email, p = .moved user email ∧ db' = db.update user.id (setEmail email)) ∨
    (∃ user currentPassword newPassword passwordHash now,
      p = .rehashed user currentPassword newPassword passwordHash now ∧
      db' = db.update user.id (setPassword passwordHash now)) ∨
    ∃ user password, p = .verified user password ∧ db' = db := by
  unfold commit at h
  split at h
  · next row password =>
    cases h
    exact .inl ⟨row, password, rfl, rfl⟩
  · next user email =>
    cases h
    exact .inr (.inl ⟨user, email, rfl, rfl⟩)
  · next user currentPassword newPassword passwordHash now =>
    cases h
    exact .inr (.inr (.inl ⟨user, currentPassword, newPassword, passwordHash, now, rfl, rfl⟩))
  · next user password =>
    cases h
    exact .inr (.inr (.inr ⟨user, password, rfl, rfl⟩))
  · cases h

theorem mem_update {userId : UUID} {write : User → User} {u : User} :
    u ∈ (db.update userId write).users ↔
      ∃ v ∈ db.users, (if v.id = userId then write v else v) = u := List.mem_map

theorem update_ids (write : User → User) (hwrite : ∀ u, (write u).id = u.id) (userId : UUID) :
    (db.update userId write).users.map User.id = db.users.map User.id := by
  change (db.users.map _).map User.id = _
  rw [List.map_map]
  refine List.map_congr_left fun u _ ↦ ?_
  rw [Function.comp_apply]
  split
  · exact hwrite u
  · rfl

theorem update_later (write : User → User)
    (hwrite : ∀ u, (write u).id = u.id ∧ (write u).createdAt = u.createdAt) (userId : UUID) :
    Later db (db.update userId write) := by
  intro u hu
  refine ⟨_, mem_update.mpr ⟨u, hu, rfl⟩, ?_⟩
  split
  · exact hwrite u
  · exact ⟨rfl, rfl⟩

theorem update_same (write : User → User) (hwrite : ∀ u, (write u).id = u.id) {userId id : UUID}
    (hne : id ≠ userId) : Same (.row id) db (db.update userId write) := by
  intro u hu
  rw [mem_update]
  constructor
  · intro hmem
    exact ⟨u, hmem, if_neg (hu ▸ hne)⟩
  · rintro ⟨v, hv, hvu⟩
    by_cases hid : v.id = userId
    · rw [if_pos hid] at hvu
      exact absurd (hu.symm.trans (hvu ▸ (hwrite v).trans hid)) hne
    · rw [if_neg hid] at hvu
      exact hvu ▸ hv

theorem update_emails {userId : UUID} {email : Text} (hids : (db.users.map User.id).Nodup)
    (hemails : (db.users.map User.email).Nodup)
    (hunique : ∀ u ∈ db.users, u.email = email → u.id = userId) :
    ((db.update userId (setEmail email)).users.map User.email).Nodup := by
  change ((db.users.map _).map User.email).Nodup
  rw [List.map_map]
  refine List.Nodup.map_on (fun u hu v hv heq ↦ ?_) (List.Nodup.of_map _ hids)
  simp only [Function.comp_apply] at heq
  by_cases hu' : u.id = userId <;> by_cases hv' : v.id = userId
  · exact List.inj_on_of_nodup_map hids hu hv (hu'.trans hv'.symm)
  · rw [if_pos hu', if_neg hv'] at heq
    exact absurd (hunique v hv heq.symm) hv'
  · rw [if_neg hu', if_pos hv'] at heq
    exact absurd (hunique u hu heq) hu'
  · rw [if_neg hu', if_neg hv'] at heq
    exact List.inj_on_of_nodup_map hemails hu hv heq

theorem sane_create (hs : Sane host db) {row : User} (hrow : Proper host row)
    (hfresh : ∀ u ∈ db.users, u.id ≠ row.id ∧ u.email ≠ row.email) :
    Sane host ⟨db.users ++ [row]⟩ := by
  have hnodup {β : Type} {f : User → β} (h : (db.users.map f).Nodup)
      (hf : ∀ u ∈ db.users, f u ≠ f row) : ((db.users ++ [row]).map f).Nodup := by
    rw [List.map_append, List.map_singleton]
    refine List.nodup_append.mpr ⟨h, List.nodup_singleton _, fun b hb c hc ↦ ?_⟩
    obtain ⟨u, hu, rfl⟩ := List.mem_map.mp hb
    rw [List.mem_singleton.mp hc]
    exact hf u hu
  refine ⟨hnodup hs.ids fun u hu ↦ (hfresh u hu).1, hnodup hs.emails fun u hu ↦ (hfresh u hu).2,
    fun u hu ↦ ?_⟩
  rcases List.mem_append.mp hu with hu | hu
  · exact hs.proper u hu
  · rw [List.mem_singleton.mp hu]
    exact hrow

theorem sane_move (hs : Sane host db) {userId : UUID} {email : Text} (hemail : Storable host email)
    (hunique : ∀ u ∈ db.users, u.email = email → u.id = userId) :
    Sane host (db.update userId (setEmail email)) := by
  refine ⟨?_, update_emails hs.ids hs.emails hunique, fun u hu ↦ ?_⟩
  · rw [update_ids (setEmail email) (fun _ ↦ rfl) userId]
    exact hs.ids
  · obtain ⟨v, hv, rfl⟩ := mem_update.mp hu
    have hproper := hs.proper v hv
    split
    · have hshown : ((setEmail email v).public host).isSome := by
        rw [public_isSome]
        exact hemail.shown
      exact ⟨hemail.canonical, hproper.hashed, hshown, hemail.column, hproper.columns.2⟩
    · exact hproper

theorem sane_rehash (hs : Sane host db) {userId : UUID} {passwordHash : Text} {now : Datetime}
    (hhash : ∃ password salt, hashPassword host password salt = some passwordHash)
    (hcolumn : textColumn 255 passwordHash) :
    Sane host (db.update userId (setPassword passwordHash now)) := by
  have hemails : (db.update userId (setPassword passwordHash now)).users.map User.email =
      db.users.map User.email := by
    change (db.users.map _).map User.email = _
    rw [List.map_map]
    refine List.map_congr_left fun u _ ↦ ?_
    rw [Function.comp_apply]
    split <;> rfl
  refine ⟨?_, hemails ▸ hs.emails, fun u hu ↦ ?_⟩
  · rw [update_ids (setPassword passwordHash now) (fun _ ↦ rfl) userId]
    exact hs.ids
  · obtain ⟨v, hv, rfl⟩ := mem_update.mp hu
    have hproper := hs.proper v hv
    split
    · have hshown : ((setPassword passwordHash now v).public host).isSome := by
        rw [public_isSome]
        exact (public_isSome v).symm.trans hproper.shown
      exact ⟨hproper.canonical, hhash, hshown, hproper.columns.1, hcolumn⟩
    · exact hproper

theorem commit_sane {p : Phase} (hs : Sane host db) (hp : PhaseInv host db p)
    (h : commit db p = some db') : Sane host db' := by
  obtain ⟨row, password, rfl, rfl⟩ | ⟨user, email, rfl, rfl⟩ |
    ⟨user, currentPassword, newPassword, passwordHash, now, rfl, rfl⟩ |
    ⟨user, password, rfl, rfl⟩ := commit_cases h
  · exact sane_create hs hp.1 hp.2.2
  · exact sane_move hs hp.2.1 hp.2.2
  · obtain ⟨-, -, ⟨salt, hhash⟩, hcolumn⟩ := hp
    exact sane_rehash hs ⟨newPassword, salt, hhash⟩ hcolumn
  · exact hs

theorem Later.refl (db : Db) : Later db db := fun u hu ↦ ⟨u, hu, rfl, rfl⟩

theorem Known.later {id : UUID} (h : Later db db') (hk : Known db id) : Known db' id := by
  obtain ⟨u, hu, rfl⟩ := hk
  obtain ⟨u', hu', hid, -⟩ := h u hu
  exact ⟨u', hu', hid⟩

theorem commit_later {p : Phase} (h : commit db p = some db') : Later db db' := by
  obtain ⟨row, password, rfl, rfl⟩ | ⟨user, email, rfl, rfl⟩ |
    ⟨user, currentPassword, newPassword, passwordHash, now, rfl, rfl⟩ |
    ⟨user, password, rfl, rfl⟩ := commit_cases h
  · exact fun u hu ↦ ⟨u, List.mem_append_left _ hu, rfl, rfl⟩
  · exact update_later (setEmail email) (fun _ ↦ ⟨rfl, rfl⟩) user.id
  · exact update_later (setPassword passwordHash now) (fun _ ↦ ⟨rfl, rfl⟩) user.id
  · exact Later.refl _

theorem commit_same {p : Phase} (h : commit db p = some db') {k : Key} (hk : k ∉ p.holds) :
    Same k db db' := by
  obtain ⟨row, password, rfl, rfl⟩ | ⟨user, email, rfl, rfl⟩ |
    ⟨user, currentPassword, newPassword, passwordHash, now, rfl, rfl⟩ |
    ⟨user, password, rfl, rfl⟩ := commit_cases h
  · rw [Phase.holds, List.mem_pair, not_or] at hk
    have hold {u : User} (hu : u ∈ db.users ++ [row]) (hne : u ≠ row) : u ∈ db.users := by
      rcases List.mem_append.mp hu with hu | hu
      · exact hu
      · exact absurd (List.mem_singleton.mp hu) hne
    cases k with
    | row id =>
      refine fun u hu ↦ ⟨List.mem_append_left _, fun hmem ↦ hold hmem ?_⟩
      rintro rfl
      exact hk.1 (congrArg Key.row hu.symm)
    | email email =>
      refine fun u hmem hemail ↦ ⟨u, hold hmem ?_, rfl, hemail⟩
      rintro rfl
      exact hk.2 (congrArg Key.email hemail.symm)
  · rw [Phase.holds, List.mem_pair, not_or] at hk
    cases k with
    | row id =>
      exact update_same (setEmail email) (fun _ ↦ rfl) fun hid ↦ hk.1 (congrArg Key.row hid)
    | email other =>
      intro u hmem hemail
      obtain ⟨v, hv, rfl⟩ := mem_update.mp hmem
      by_cases hid : v.id = user.id
      · rw [if_pos hid] at hemail
        exact absurd (congrArg Key.email hemail.symm) hk.2
      · rw [if_neg hid] at hemail ⊢
        exact ⟨v, hv, rfl, hemail⟩
  · rw [Phase.holds, List.mem_singleton] at hk
    cases k with
    | row id =>
      exact update_same (setPassword passwordHash now) (fun _ ↦ rfl) fun hid ↦
        hk (congrArg Key.row hid)
    | email email =>
      intro u hmem hemail
      obtain ⟨v, hv, rfl⟩ := mem_update.mp hmem
      refine ⟨v, hv, ?_⟩
      split
      · next hid =>
        rw [if_pos hid] at hemail
        exact ⟨rfl, hemail⟩
      · next hid =>
        rw [if_neg hid] at hemail
        exact ⟨rfl, hemail⟩
  · cases k with
    | row id => exact fun _ _ ↦ Iff.rfl
    | email email => exact fun u hmem hemail ↦ ⟨u, hmem, rfl, hemail⟩

theorem phase_same {p : Phase} (hl : Later db db') (hsame : ∀ k ∈ p.holds, Same k db db')
    (hp : PhaseInv host db p) : PhaseInv host db' p := by
  cases p with
  | idle => trivial
  | available email password => exact hp
  | created row password =>
    obtain ⟨hproper, hhash, hfresh⟩ := hp
    refine ⟨hproper, hhash, fun u hu ↦ ⟨fun hid ↦ ?_, fun hemail ↦ ?_⟩⟩
    · have hrow := hsame (.row row.id) List.mem_cons_self
      exact (hfresh u ((hrow u hid).mpr hu)).1 hid
    · have hentry := hsame (.email row.email) (List.mem_cons_of_mem _ List.mem_cons_self)
      obtain ⟨v, hv, -, hvemail⟩ := hentry u hu hemail
      exact (hfresh v hv).2 hvemail
  | viewed user => exact hp.later hl
  | unchanged user => exact hp.later hl
  | vacant user email => exact ⟨hp.1.later hl, hp.2⟩
  | moved user email =>
    obtain ⟨hknown, hemail, hunique⟩ := hp
    refine ⟨hknown.later hl, hemail, fun u hu hue ↦ ?_⟩
    have hentry := hsame (.email email) (List.mem_cons_of_mem _ List.mem_cons_self)
    obtain ⟨v, hv, hid, hve⟩ := hentry u hu hue
    exact hid ▸ hunique v hv hve
  | reauthenticated user currentPassword newPassword =>
    exact ⟨(hsame (.row user.id) List.mem_cons_self user rfl).mp hp.1, hp.2⟩
  | rehashed user currentPassword newPassword passwordHash now =>
    exact ⟨(hsame (.row user.id) List.mem_cons_self user rfl).mp hp.1, hp.2⟩
  | verified user password =>
    exact ⟨(hsame (.row user.id) List.mem_cons_self user rfl).mp hp.1, hp.2⟩

theorem sound (host : AccountHost) :
    Sound (protocol host) (Sane host) (PhaseInv host) Same Later where
  idle _ := trivial
  holds_idle := rfl
  advance _ hp h := advance_inv hp h
  commit hs hp h := commit_sane hs hp h
  later _ _ h := commit_later h
  frame _ _ h _ hk := commit_same h hk
  same _ _ hl hsame hp := phase_same hl hsame hp

theorem initial_sane (h : initial db) : Sane host db := by
  rw [initial] at h
  refine ⟨?_, ?_, ?_⟩ <;> rw [h]
  · exact List.nodup_nil
  · exact List.nodup_nil
  · exact List.forall_mem_nil _

end

end LearningTasks.Services.Accounts
