import LearningTasks.Services.RefreshTokens

namespace LearningTasks.Services.AccessTokens

open Library.Strings Schemas.Scalars RefreshTokens

structure AccessPayload where
  sub : Text
  type : Text
  iat : ℤ
  exp : ℤ
  iss : Text
  aud : Text

def second : Instant := 1000000

/-- Signed tokens. What is decoded under the key it was signed with comes back where it
is from the issuer for the audience and `iat` and `exp` enclose the time. -/
structure Jwt where
  encode : AccessPayload → Text → Text
  encode_ne : ∀ p key, encode p key ≠ []
  decode : Text → Text → Text → Text → Instant → Option AccessPayload
  decode_encode : ∀ p key issuer audience now, decode (encode p key) key issuer audience now =
    if p.iss = issuer ∧ p.aud = audience ∧ p.iat * second ≤ now ∧ now < p.exp * second then some p
    else none

structure Settings where
  accessTokenSecret : Option Text
  accessTokenTtlMinutes : ℕ
  accessTokenIssuer : Text
  accessTokenAudience : Text
  ttl : 1 ≤ accessTokenTtlMinutes ∧ accessTokenTtlMinutes ≤ 60

/-- What tokens are made and read with; `uuid` is the reading of the standard library. -/
structure TokenHost where
  jwt : Jwt
  settings : Settings
  uuid : Text → Option UUID
  uuid_text : ∀ u, uuid u.text = some u

inductive TokenError
  | invalid
  | configuration
  deriving DecidableEq

structure AccessTokenClaims where
  subject : UUID
  issuedAt : Instant
  expiresAt : Instant

def accessTokenType : Text := "access".toList

def Settings.lifetime (settings : Settings) : Instant :=
  settings.accessTokenTtlMinutes * 60 * second

section

variable (host : TokenHost)

def accessPayload (userId : UUID) (issuedAt : Instant) : AccessPayload where
  sub := userId.text
  type := accessTokenType
  iat := issuedAt / second
  exp := (issuedAt + host.settings.lifetime) / second
  iss := host.settings.accessTokenIssuer
  aud := host.settings.accessTokenAudience

def createAccessToken (userId : UUID) (issuedAt : Instant) : Except TokenError Text :=
  match host.settings.accessTokenSecret with
  | none => .error .configuration
  | some secret => .ok (host.jwt.encode (accessPayload host userId issuedAt) secret)

def validateAccessToken (token : Text) (now : Instant) : Except TokenError AccessTokenClaims :=
  match host.settings.accessTokenSecret with
  | none => .error .configuration
  | some secret =>
    match host.jwt.decode token secret host.settings.accessTokenIssuer
        host.settings.accessTokenAudience now with
    | none => .error .invalid
    | some payload =>
      if payload.type ≠ accessTokenType then .error .invalid
      else match host.uuid payload.sub with
        | none => .error .invalid
        | some subject => .ok ⟨subject, payload.iat * second, payload.exp * second⟩

structure HTTPAuthorizationCredentials where
  scheme : Text
  credentials : Text

inductive RequestError
  | unauthorized
  | configuration
  deriving DecidableEq

def bearer : Text := "bearer".toList

/-- `get_current_user`. The letters of the scheme fold to those of `bearer` only where they
are letters of ASCII. -/
def getCurrentUser (credentials : Option HTTPAuthorizationCredentials) (users : List User)
    (now : Instant) : Except RequestError User :=
  match credentials with
  | none => .error .unauthorized
  | some credentials =>
    if credentials.scheme.map Char.toLower ≠ bearer ∨ credentials.credentials = [] then
      .error .unauthorized
    else match validateAccessToken host credentials.credentials now with
      | .error .invalid => .error .unauthorized
      | .error .configuration => .error .configuration
      | .ok claims =>
        match users.find? fun u ↦ u.id = claims.subject with
        | none => .error .unauthorized
        | some user => .ok user

end

section

variable {host : TokenHost} {userId : UUID} {issuedAt now : Instant} {token : Text}

def Settings.expiry (settings : Settings) (issuedAt : Instant) : Instant :=
  (issuedAt + settings.lifetime) / second * second

theorem div_second (x : ℤ) : x / second * second ≤ x := by
  have hsecond : second = (1000000 : ℤ) := rfl
  rw [hsecond]
  omega

theorem expiry_le (settings : Settings) (issuedAt : Instant) :
    settings.expiry issuedAt ≤ issuedAt + settings.lifetime := div_second _

theorem validateAccessToken_created (h : createAccessToken host userId issuedAt = .ok token)
    (hnow : issuedAt ≤ now) : validateAccessToken host token now =
      if now < host.settings.expiry issuedAt then
        .ok ⟨userId, issuedAt / second * second, host.settings.expiry issuedAt⟩
      else .error .invalid := by
  unfold createAccessToken at h
  unfold validateAccessToken
  cases hsecret : host.settings.accessTokenSecret with
  | none =>
    rw [hsecret] at h
    cases h
  | some secret =>
    rw [hsecret] at h
    cases h
    have hiat : issuedAt / second * second ≤ now := (div_second issuedAt).trans hnow
    dsimp only
    rw [host.jwt.decode_encode]
    by_cases hexp : now < host.settings.expiry issuedAt
    · rw [if_pos ⟨rfl, rfl, hiat, hexp⟩, if_pos hexp]
      refine (if_neg (not_not.mpr rfl)).trans ?_
      dsimp only [accessPayload]
      rw [host.uuid_text]
      rfl
    · rw [if_neg fun hall ↦ hexp hall.2.2.2, if_neg hexp]

def bearerHeader (token : Text) : Option HTTPAuthorizationCredentials := some ⟨bearer, token⟩

theorem getCurrentUser_created (h : createAccessToken host userId issuedAt = .ok token)
    (hnow : issuedAt ≤ now) {users : List User} (huser : userId ∈ users.map User.id) :
    if now < host.settings.expiry issuedAt then
      ∃ u ∈ users, u.id = userId ∧ getCurrentUser host (bearerHeader token) users now = .ok u
    else getCurrentUser host (bearerHeader token) users now = .error .unauthorized := by
  have hnonempty : token ≠ [] := by
    unfold createAccessToken at h
    split at h
    · cases h
    · cases h
      exact host.jwt.encode_ne _ _
  have hscheme : ¬ (bearer.map Char.toLower ≠ bearer ∨ token = []) := by
    rw [not_or, not_not]
    exact ⟨by decide, hnonempty⟩
  have hcurrent : getCurrentUser host (bearerHeader token) users now =
      match validateAccessToken host token now with
      | .error .invalid => .error .unauthorized
      | .error .configuration => .error .configuration
      | .ok claims =>
        match users.find? fun u ↦ u.id = claims.subject with
        | none => .error .unauthorized
        | some user => .ok user := if_neg hscheme
  rw [hcurrent, validateAccessToken_created h hnow]
  split
  · dsimp only
    cases hfind : users.find? fun u ↦ u.id = userId with
    | none =>
      obtain ⟨u, hu, hid⟩ := List.mem_map.mp huser
      exact absurd (decide_eq_true hid) (List.find?_eq_none.mp hfind u hu)
    | some u =>
      have hid := List.find?_some hfind
      exact ⟨u, List.mem_of_find?_eq_some hfind, of_decide_eq_true hid, rfl⟩
  · rfl

end

def frame (s : Text) : Text := List.replicate s.length '1' ++ '0' :: s

def unframe (t : Text) : Text × Text :=
  let n := (t.takeWhile (· = '1')).length
  ((t.drop (n + 1)).take n, (t.drop (n + 1)).drop n)

theorem unframe_frame (s t : Text) : unframe (frame s ++ t) = (s, t) := by
  have hones : (frame s ++ t).takeWhile (· = '1') = List.replicate s.length '1' := by
    rw [frame, List.append_assoc, List.takeWhile_append_of_pos fun c hc ↦
      decide_eq_true (List.eq_of_mem_replicate hc)]
    exact List.append_nil _
  have hrest : (frame s ++ t).drop (s.length + 1) = s ++ t := by
    rw [frame, List.append_assoc, List.drop_append, List.length_replicate,
      List.drop_eq_nil_of_le (by rw [List.length_replicate]; omega), Nat.add_sub_cancel_left]
    rfl
  unfold unframe
  rw [hones, List.length_replicate]
  dsimp only
  rw [hrest, List.take_left, List.drop_left]

def intText (n : ℤ) : Text := List.replicate n.natAbs (if n < 0 then '-' else '+')

def readInt (t : Text) : ℤ := if t.head? = some '-' then -t.length else t.length

theorem readInt_intText (n : ℤ) : readInt (intText n) = n := by
  unfold readInt intText
  rw [List.length_replicate, List.head?_replicate]
  by_cases hn : n < 0
  · have hne : n.natAbs ≠ 0 := by omega
    rw [if_pos hn, if_neg hne, if_pos rfl]
    omega
  · have hhead : ¬ (if n.natAbs = 0 then none else some '+') = some '-' := by
      split_ifs
      all_goals simp
    rw [if_neg hn, if_neg hhead]
    omega

def sampleJwt : Jwt where
  encode p key := frame key ++ (frame p.sub ++ (frame p.type ++ (frame (intText p.iat) ++
    (frame (intText p.exp) ++ (frame p.iss ++ (frame p.aud ++ []))))))
  encode_ne p key h := by
    have hframe := (List.append_eq_nil_iff.mp h).1
    exact List.cons_ne_nil _ _ (List.append_eq_nil_iff.mp hframe).2
  decode token key issuer audience now :=
    let (signedWith, t) := unframe token
    let (sub, t) := unframe t
    let (type, t) := unframe t
    let (iat, t) := unframe t
    let (exp, t) := unframe t
    let (iss, t) := unframe t
    let (aud, _) := unframe t
    if signedWith = key ∧ iss = issuer ∧ aud = audience ∧ readInt iat * second ≤ now ∧
        now < readInt exp * second then
      some ⟨sub, type, readInt iat, readInt exp, iss, aud⟩
    else none
  decode_encode p key issuer audience now := by
    simp only [unframe_frame, readInt_intText, true_and]

def sampleTokenHost : TokenHost :=
  ⟨sampleJwt, ⟨some ['k'], 1, ['i'], ['a'], by decide⟩, readUUID, readUUID_text⟩

end LearningTasks.Services.AccessTokens
