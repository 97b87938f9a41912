import LearningTasks.Services.Accounts

namespace LearningTasks.Services.AccountHistory

open Library.Strings Library.Transition Library.KeyLocks Schemas.Scalars Accounts

/-- What an account is: an address and the password that goes with it. -/
structure Account where
  email : Text
  password : Text

abbrev AccountStore := UUID → Option Account

inductive Event
  | registered (id : UUID) (email password : Text)
  | emailChanged (id : UUID) (email : Text)
  | passwordChanged (id : UUID) (currentPassword newPassword : Text)
  | loggedIn (id : UUID) (email password : Text)

def event : Phase → Option Event
  | .created row password => some (.registered row.id row.email password)
  | .moved user email => some (.emailChanged user.id email)
  | .rehashed user currentPassword newPassword _ _ =>
    some (.passwordChanged user.id currentPassword newPassword)
  | .verified user password => some (.loggedIn user.id user.email password)
  | _ => none

def effect : Event → AccountStore → AccountStore
  | .registered id email password, a => Function.update a id (some ⟨email, password⟩)
  | .emailChanged id email, a =>
    Function.update a id ((a id).map fun account ↦ { account with email := email })
  | .passwordChanged id _ newPassword, a =>
    Function.update a id ((a id).map fun account ↦ { account with password := newPassword })
  | .loggedIn _ _ _, a => a

section

variable (host : AccountHost)

/-- A password that verifies against a hash of the account's own. -/
def Accepts (account : Account) (password : Text) : Prop :=
  ∃ salt passwordHash, hashPassword host account.password salt = some passwordHash ∧
    host.verify password passwordHash

def Legal : Event → AccountStore → Prop
  | .registered id email _, a => a id = none ∧ ∀ id' account, a id' = some account →
      account.email ≠ email
  | .emailChanged id email, a => (a id).isSome ∧ ∀ id' account, a id' = some account →
      account.email = email → id' = id
  | .passwordChanged id currentPassword _, a =>
      ∃ account, a id = some account ∧ Accepts host account currentPassword
  | .loggedIn id email password, a =>
      ∃ account, a id = some account ∧ account.email = email ∧ Accepts host account password

/-- A stored user: the account of its id, with a hash in place of the password. -/
def Holds (a : AccountStore) (u : User) : Prop :=
  ∃ password salt, a u.id = some ⟨u.email, password⟩ ∧
    hashPassword host password salt = some u.passwordHash

structure Stands (db : Db) (a : AccountStore) : Prop where
  users : ∀ u ∈ db.users, Holds host a u
  accounts : ∀ id account, a id = some account → Known db id

end

section

variable {host : AccountHost} {db : Db} {a : AccountStore}

theorem Stands.row (h : Stands host db a) {id : UUID} {account : Account}
    (ha : a id = some account) : ∃ u ∈ db.users, u.id = id ∧ u.email = account.email ∧
      ∃ salt, hashPassword host account.password salt = some u.passwordHash := by
  obtain ⟨u, hu, rfl⟩ := h.accounts id account ha
  obtain ⟨password, salt, hsome, hhash⟩ := h.users u hu
  obtain rfl := Option.some.inj (ha.symm.trans hsome)
  exact ⟨u, hu, rfl, rfl, salt, hhash⟩

theorem Stands.accepts (h : Stands host db a) {u : User} (hu : u ∈ db.users) {password : Text}
    (hverify : host.verify password u.passwordHash) :
    ∃ account, a u.id = some account ∧ account.email = u.email ∧ Accepts host account password := by
  obtain ⟨own, salt, hsome, hhash⟩ := h.users u hu
  exact ⟨⟨u.email, own⟩, hsome, rfl, salt, u.passwordHash, hhash, hverify⟩

theorem stands_create (h : Stands host db a) {row : User} {password : Text}
    (hhash : ∃ salt, hashPassword host password salt = some row.passwordHash)
    (hfresh : ∀ u ∈ db.users, u.id ≠ row.id ∧ u.email ≠ row.email) :
    Stands host ⟨db.users ++ [row]⟩ (effect (.registered row.id row.email password) a) where
  users u hu := by
    rcases List.mem_append.mp hu with hu | hu
    · obtain ⟨own, salt, hsome, hown⟩ := h.users u hu
      refine ⟨own, salt, ?_, hown⟩
      rw [effect, Function.update_of_ne (hfresh u hu).1, hsome]
    · obtain ⟨salt, hhash⟩ := hhash
      rw [List.mem_singleton.mp hu]
      exact ⟨password, salt, Function.update_self .., hhash⟩
  accounts id account ha := by
    by_cases hid : id = row.id
    · exact ⟨row, List.mem_append_right _ List.mem_cons_self, hid.symm⟩
    · rw [effect, Function.update_of_ne hid] at ha
      obtain ⟨u, hu, hsame⟩ := h.accounts id account ha
      exact ⟨u, List.mem_append_left _ hu, hsame⟩

theorem stands_update (h : Stands host db a) {userId : UUID} (write : User → User)
    (hwrite : ∀ u, (write u).id = u.id) (change : Account → Account)
    (hchange : ∀ u ∈ db.users, u.id = userId → ∀ password salt,
      hashPassword host password salt = some u.passwordHash → ∃ password' salt',
        change ⟨u.email, password⟩ = ⟨(write u).email, password'⟩ ∧
        hashPassword host password' salt' = some (write u).passwordHash) :
    Stands host (db.update userId write) (Function.update a userId ((a userId).map change)) where
  users u hu := by
    obtain ⟨v, hv, rfl⟩ := mem_update.mp hu
    obtain ⟨password, salt, hsome, hhash⟩ := h.users v hv
    by_cases hid : v.id = userId
    · obtain ⟨password', salt', heq, hhash'⟩ := hchange v hv hid password salt hhash
      rw [if_pos hid]
      refine ⟨password', salt', ?_, hhash'⟩
      rw [hwrite, hid, Function.update_self, ← hid, hsome, Option.map_some, heq]
    · rw [if_neg hid]
      exact ⟨password, salt, by rw [Function.update_of_ne hid, hsome], hhash⟩
  accounts id account ha := by
    have hknown : Known db id := by
      by_cases hid : id = userId
      · subst hid
        rw [Function.update_self] at ha
        obtain ⟨own, hown, -⟩ := Option.map_eq_some_iff.mp ha
        exact h.accounts _ own hown
      · rw [Function.update_of_ne hid] at ha
        exact h.accounts id account ha
    obtain ⟨u, hu, rfl⟩ := hknown
    refine ⟨_, mem_update.mpr ⟨u, hu, rfl⟩, ?_⟩
    split
    · exact hwrite u
    · rfl

theorem serializes (host : AccountHost) : Serializes (protocol host) (Sane host) (PhaseInv host)
    event (Legal host) effect (Stands host) := by
  intro db p db' a hs hp ha hcommit
  obtain ⟨row, password, rfl, rfl⟩ | ⟨user, email, rfl, rfl⟩ |
    ⟨user, currentPassword, newPassword, passwordHash, now, rfl, rfl⟩ |
    ⟨user, password, rfl, rfl⟩ := commit_cases hcommit
  · obtain ⟨-, hhash, hfresh⟩ := hp
    refine ⟨_, rfl, ⟨?_, fun id account hsome ↦ ?_⟩, stands_create ha hhash hfresh⟩
    · cases hnone : a row.id with
      | none => rfl
      | some account =>
        obtain ⟨u, hu, hid, -⟩ := ha.row hnone
        exact absurd hid (hfresh u hu).1
    · obtain ⟨u, hu, -, hemail, -⟩ := ha.row hsome
      exact hemail ▸ (hfresh u hu).2
  · obtain ⟨⟨u, hu, hid⟩, -, hunique⟩ := hp
    refine ⟨_, rfl, ⟨?_, fun id account hsome hemail ↦ ?_⟩, ?_⟩
    · obtain ⟨own, salt, hsome, -⟩ := ha.users u hu
      exact Option.isSome_of_eq_some (hid ▸ hsome)
    · obtain ⟨v, hv, hvid, hvemail, -⟩ := ha.row hsome
      exact hvid ▸ hunique v hv (hvemail.trans hemail)
    · exact stands_update ha (setEmail email) (fun _ ↦ rfl) _ fun v _ _ own salt hown ↦
        ⟨own, salt, rfl, hown⟩
  · obtain ⟨hu, hverify, ⟨salt, hhash⟩, -⟩ := hp
    obtain ⟨account, hsome, -, haccepts⟩ := ha.accepts hu hverify
    refine ⟨_, rfl, ⟨account, hsome, haccepts⟩, ?_⟩
    exact stands_update ha (setPassword passwordHash now) (fun _ ↦ rfl) _ fun v _ _ _ _ _ ↦
      ⟨newPassword, salt, rfl, hhash⟩
  · obtain ⟨hu, hverify⟩ := hp
    exact ⟨_, rfl, ha.accepts hu hverify, ha⟩

theorem getByEmail_of_mem (hs : Sane host db) {u : User} (hu : u ∈ db.users) :
    db.getByEmail u.email = some u := by
  cases hfound : db.getByEmail u.email with
  | none => exact absurd rfl (of_decide_eq_false (Bool.eq_false_iff.mpr
      (List.find?_eq_none.mp hfound u hu)))
  | some v =>
    obtain ⟨hv, hemail⟩ := getByEmail_some hfound
    rw [List.inj_on_of_nodup_map hs.emails hv hu hemail]

theorem hashPassword_some {password passwordHash : Text} {salt : ℕ}
    (h : hashPassword host password salt = some passwordHash) :
    (12 ≤ password.length ∧ password.length ≤ 128) ∧
      host.hash password salt = some passwordHash := by
  obtain ⟨accepted, haccepted, hhash⟩ := Option.bind_eq_some_iff.mp h
  obtain rfl := validatePassword_some haccepted
  unfold validatePassword at haccepted
  split_ifs at haccepted with hlength
  exact ⟨hlength, hhash⟩

theorem login_of_mem (hs : Sane host db) {u : User} (hu : u ∈ db.users) {email password : Text}
    (hemail : (normalizeEmail host email).bind (normalizeEmail host) = some u.email)
    (hlength : 1 ≤ password.length ∧ password.length ≤ 128)
    (hverify : host.verify password u.passwordHash = true) :
    advance host db .idle (.login email password) = some (.verified u password) := by
  obtain ⟨once, honce, htwice⟩ := Option.bind_eq_some_iff.mp hemail
  have hvalid : UserLoginRequest.validate host email password = some ⟨once, password⟩ := by
    rw [UserLoginRequest.validate, honce, Option.bind_some, if_neg (by omega)]
  change (UserLoginRequest.validate host email password >>= _) = _
  rw [hvalid]
  change (normalizeEmail host once >>= _) = _
  rw [htwice]
  change (db.getByEmail u.email >>= _) = _
  rw [getByEmail_of_mem hs hu]
  exact if_pos hverify

variable {τ : Type} [DecidableEq τ] {s s' : State τ Db Phase Key} {ms : List (Move τ Action)}

/-- The accounts after the requests that have committed along a run. -/
def accountsAfter (host : AccountHost) (s : State τ Db Phase Key) (ms : List (Move τ Action)) :
    AccountStore :=
  replay effect (fun _ ↦ none) ((protocol host).history event s ms)

theorem run_inv (h0 : (accountMachine host τ).init s)
    (h : (accountMachine host τ).exec s ms = some s') :
    Inv (protocol host) (Sane host) (PhaseInv host) s' :=
  inv_reachable (sound host) (fun _ ↦ initial_sane) ((Machine.Reachable.start h0).exec h)

theorem run_stands (h0 : (accountMachine host τ).init s)
    (h : (accountMachine host τ).exec s ms = some s') :
    Lawful (Legal host) effect (fun _ ↦ none) ((protocol host).history event s ms) ∧
      Stands host s'.db (accountsAfter host s ms) := by
  have hempty : Stands host s.db fun _ ↦ none := by
    refine ⟨?_, fun _ _ hnone ↦ absurd hnone nofun⟩
    rw [h0.1]
    exact List.forall_mem_nil _
  have hinv := inv_reachable (sound host) (fun _ ↦ initial_sane) (Machine.Reachable.start h0)
  exact history_serial (sound host) (serializes host) hinv hempty h

end

/-- However registrations, logins, email updates and password changes interleave, the table
is what the requests that committed make of the accounts one after another, each of them
legal where it stands: no update is lost and no two accounts share an address. -/
theorem accounts_serial (host : AccountHost) {τ : Type} [DecidableEq τ]
    {s s' : State τ Db Phase Key} {ms : List (Move τ Action)}
    (h0 : (accountMachine host τ).init s) (h : (accountMachine host τ).exec s ms = some s') :
    Lawful (Legal host) effect (fun _ ↦ none) ((protocol host).history event s ms) ∧
      Stands host s'.db (accountsAfter host s ms) ∧
      (s'.db.users.map User.id).Nodup ∧ (s'.db.users.map User.email).Nodup ∧
      ∀ u ∈ s'.db.users, Proper host u := by
  obtain ⟨hlawful, hstands⟩ := run_stands h0 h
  have hs := (run_inv h0 h).db
  exact ⟨hlawful, hstands, hs.ids, hs.emails, hs.proper⟩

/-- The latest credentials of an account log in, whatever other requests are under way. -/
theorem latest_credentials (host : AccountHost)
    (hverify : ∀ password salt passwordHash, host.hash password salt = some passwordHash →
      host.verify password passwordHash = true) {τ : Type} [DecidableEq τ]
    {s s' : State τ Db Phase Key} {ms : List (Move τ Action)}
    (h0 : (accountMachine host τ).init s) (h : (accountMachine host τ).exec s ms = some s')
    {id : UUID} {account : Account} (haccount : accountsAfter host s ms id = some account)
    {email : Text}
    (hemail : (normalizeEmail host email).bind (normalizeEmail host) = some account.email) :
    ∃ u ∈ s'.db.users, u.id = id ∧ u.email = account.email ∧
      advance host s'.db .idle (.login email account.password) =
        some (.verified u account.password) := by
  obtain ⟨-, hstands⟩ := run_stands h0 h
  obtain ⟨u, hu, hid, hsame, salt, hhash⟩ := hstands.row haccount
  obtain ⟨⟨hlow, hhigh⟩, hmade⟩ := hashPassword_some hhash
  refine ⟨u, hu, hid, hsame, login_of_mem (run_inv h0 h).db hu (hsame ▸ hemail) ?_ ?_⟩
  · exact ⟨(by decide : 1 ≤ 12).trans hlow, hhigh⟩
  · exact hverify account.password salt u.passwordHash hmade

def sampleHost : AccountHost where
  validateEmail email := if '@' ∈ email then some email else none
  casefold email := email.map Char.toLower
  hash password _ := some ('#' :: password)
  verify password passwordHash := passwordHash = '#' :: password

def firstEmail : Text := "reader@example.com".toList

def secondEmail : Text := "Learner@example.com".toList

def firstPassword : Text := "first password".toList

def secondPassword : Text := "second password".toList

def emptyTable : State Bool Db Phase Key := ⟨⟨[]⟩, fun _ ↦ .idle, fun _ ↦ none⟩

/-- A user who registers, and then changes the email and the password at the same time. -/
def sampleMoves : List (Move Bool Action) :=
  [.advance false (.register firstEmail firstPassword),
    .advance false (.create (sampleId 1) 0 (sampleInstant 0)), .commit false,
    .advance false (.view (sampleId 1)), .advance true (.view (sampleId 1)),
    .advance false (.check secondEmail), .advance true (.reauthenticate firstPassword secondPassword),
    .advance true (.rehash 0 (sampleInstant 1)), .commit true, .advance false .move, .commit false]

theorem sample_run : ∃ s, (accountMachine sampleHost Bool).exec emptyTable sampleMoves = some s :=
  ⟨_, rfl⟩

theorem emptyTable_init : (accountMachine sampleHost Bool).init emptyTable :=
  ⟨rfl, fun _ ↦ rfl, fun _ ↦ rfl⟩

theorem accounts_serial_sample : ∃ s,
    (accountMachine sampleHost Bool).exec emptyTable sampleMoves = some s ∧
    Stands sampleHost s.db (accountsAfter sampleHost emptyTable sampleMoves) := by
  obtain ⟨s, h⟩ := sample_run
  obtain ⟨-, hstands, -⟩ := accounts_serial sampleHost emptyTable_init h
  exact ⟨s, h, hstands⟩

/-- Both changes are there afterwards. -/
theorem latest_credentials_sample : ∃ s,
    (accountMachine sampleHost Bool).exec emptyTable sampleMoves = some s ∧
    ∃ u ∈ s.db.users, u.id = sampleId 1 ∧ u.email = secondEmail.map Char.toLower ∧
      advance sampleHost s.db .idle (.login secondEmail secondPassword) =
        some (.verified u secondPassword) := by
  obtain ⟨s, h⟩ := sample_run
  have haccount : accountsAfter sampleHost emptyTable sampleMoves (sampleId 1) =
      some ⟨secondEmail.map Char.toLower, secondPassword⟩ := rfl
  refine ⟨s, h, latest_credentials sampleHost (fun _ _ _ hhash ↦ ?_) emptyTable_init h haccount
    rfl⟩
  exact decide_eq_true (Option.some.inj hhash).symm

end LearningTasks.Services.AccountHistory
