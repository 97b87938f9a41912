import LearningTasks.Services.AccessTokens

namespace LearningTasks.Services.AccessLifetime

open Library Library.Strings Library.Transition Schemas.Scalars RefreshTokens AccessTokens

/-- An access token, with the user, the refresh token and the password changes seen by the
login that it goes back to. -/
structure Grant where
  token : Text
  userId : UUID
  issuedAt : Instant
  refreshId : UUID
  epoch : ℕ

/-- The transactions on refresh tokens, a clock that all servers read, the access tokens that
are signed in transactions still open, and those that clients have received. -/
structure State (τ : Type) where
  sessions : RowLocks.State τ Db Phase UUID
  clock : Instant
  signed : τ → Option Grant
  granted : List Grant

inductive Move (τ : Type)
  | session (m : RowLocks.Move τ Action)
  | sign (t : τ)
  | pass (duration : ℕ)

def pending : Phase → Option RefreshToken
  | .issued token | .rotated _ _ token => some token
  | _ => none

section

variable (host : TokenHost) (τ : Type) [DecidableEq τ] (verify : Text → Text → Bool)

/-- A login or a rotation signs an access token before it commits, and delivers it after. -/
def step (s : State τ) : Move τ → Option (State τ)
  | .session (.commit t) =>
    (RowLocks.step (protocol verify) s.sessions (.commit t)).bind fun sessions ↦
      match pending (s.sessions.phase t), s.signed t with
      | none, _ => some { s with sessions := sessions }
      | some _, none => none
      | some _, some grant =>
        some ⟨sessions, s.clock, Function.update s.signed t none, s.granted ++ [grant]⟩
  | .session (.abort t) =>
    (RowLocks.step (protocol verify) s.sessions (.abort t)).map fun sessions ↦
      { s with sessions := sessions, signed := Function.update s.signed t none }
  | .session (.advance t a) =>
    (RowLocks.step (protocol verify) s.sessions (.advance t a)).map fun sessions ↦
      { s with sessions := sessions }
  | .sign t =>
    match pending (s.sessions.phase t), s.signed t with
    | some token, none =>
      match createAccessToken host token.userId s.clock with
      | .ok access =>
        let grant : Grant := ⟨access, token.userId, s.clock, token.id, token.epoch⟩
        some { s with signed := Function.update s.signed t (some grant) }
      | .error _ => none
    | _, _ => none
  | .pass duration => some { s with clock := s.clock + duration }

def accessMachine : Machine (State τ) (Move τ) where
  init s := (refreshMachine τ verify).init s.sessions ∧ (∀ t, s.signed t = none) ∧ s.granted = []
  step := step host τ verify

end

structure Genuine (host : TokenHost) (clock : Instant) (g : Grant) : Prop where
  created : createAccessToken host g.userId g.issuedAt = .ok g.token
  past : g.issuedAt ≤ clock

structure Granted (host : TokenHost) (db : Db) (clock : Instant) (g : Grant) : Prop extends
    Genuine host clock g where
  user : g.userId ∈ db.users.map User.id
  refresh : ∃ r ∈ db.tokens, r.id = g.refreshId ∧ r.userId = g.userId
  epoch : g.epoch ≤ db.epoch g.userId

/-- The access token of a transaction goes with its refresh token. -/
structure Signed (host : TokenHost) (clock : Instant) (g : Grant) (token : RefreshToken) : Prop
    extends Genuine host clock g where
  userId : g.userId = token.userId
  refreshId : g.refreshId = token.id
  epoch : g.epoch = token.epoch

structure AccessInv (host : TokenHost) {τ : Type} [DecidableEq τ] (verify : Text → Text → Bool)
    (s : State τ) : Prop where
  sessions : (refreshMachine τ verify).Reachable s.sessions
  users : ∀ t token, pending (s.sessions.phase t) = some token →
    token.userId ∈ s.sessions.db.users.map User.id
  signed : ∀ t g, s.signed t = some g → ∃ token, pending (s.sessions.phase t) = some token ∧
    Signed host s.clock g token
  granted : ∀ g ∈ s.granted, Granted host s.sessions.db s.clock g

section

variable {host : TokenHost} {τ : Type} [DecidableEq τ] {verify : Text → Text → Bool}
  {db db' : Db} {p p' : Phase} {clock clock' : Instant} {g : Grant} {token : RefreshToken}

theorem commit_users (h : commit db p = some db') :
    db'.users.map User.id = db.users.map User.id := by
  unfold commit at h
  split at h
  · obtain ⟨-, h⟩ := Option.ite_none_right_eq_some.mp h
    cases h
    rfl
  · obtain ⟨-, h⟩ := Option.ite_none_right_eq_some.mp h
    cases h
    rfl
  · cases h
    rfl
  · cases h
    rfl
  · cases h
    change (db.users.map _).map _ = _
    rw [List.map_map]
    refine List.map_congr_left fun u _ ↦ ?_
    dsimp only [Function.comp_apply]
    split <;> rfl
  · cases h

theorem advance_of_pending (h : pending p = some token) (a : Action) :
    advance verify db p a = none := by
  cases p <;> cases h <;> cases a <;> rfl

theorem advance_pending {a : Action} (h : advance verify db p a = some p')
    (hp : pending p' = some token) : token.userId ∈ db.users.map User.id := by
  have hany {id : UUID} (h : (db.users.any fun u ↦ u.id = id) = true) :
      id ∈ db.users.map User.id := by
    obtain ⟨u, hu, hid⟩ := List.any_eq_true.mp h
    exact List.mem_map.mpr ⟨u, hu, of_decide_eq_true hid⟩
  unfold advance at h
  split at h
  · split at h
    · split_ifs at h
      cases h
      cases hp
    · cases h
  · split_ifs at h with huser
    cases h
    cases hp
    exact hany huser
  · obtain ⟨r, -, rfl⟩ := Option.map_eq_some_iff.mp h
    cases hp
  · split_ifs at h
    cases h
    cases hp
  · cases h
    cases hp
  · split_ifs at h
    cases h
    cases hp
  · split_ifs at h with huser
    cases h
    cases hp
    exact hany huser
  · cases h
    cases hp
  · split_ifs at h
    · cases h
      cases hp
    · cases h
      cases hp
  · split at h
    · split_ifs at h
      cases h
      cases hp
    · cases h
  · cases h
    cases hp
  · cases h
    cases hp
  · cases h

theorem Granted.mono (h : Granted host db clock g) (hgrows : Grows db db')
    (husers : db'.users.map User.id = db.users.map User.id) (hclock : clock ≤ clock') :
    Granted host db' clock' g := by
  obtain ⟨r, hr, hid, huser⟩ := h.refresh
  obtain ⟨r', hr', hid', huser', -⟩ := hgrows.2 r hr
  exact ⟨⟨h.created, h.past.trans hclock⟩, husers ▸ h.user,
    ⟨r', hr', hid'.trans hid, huser'.trans huser⟩, h.epoch.trans (hgrows.1 _)⟩

theorem Signed.mono (h : Signed host clock g token) (hclock : clock ≤ clock') :
    Signed host clock' g token :=
  ⟨⟨h.created, h.past.trans hclock⟩, h.userId, h.refreshId, h.epoch⟩

theorem pending_epoch (hi : DbInv db) (hp : PhaseInv db p) (h : pending p = some token) :
    token.epoch = db.epoch token.userId := by
  cases p with
  | issued token =>
    cases h
    exact hp.2.2.2
  | rotated record now token =>
    cases h
    obtain ⟨⟨hmem, hnone, -⟩, -, -, -, hepoch, huser⟩ := hp
    rw [hepoch, huser]
    exact hi.epoch record hmem hnone
  | _ => cases h

theorem commit_pending (h : commit db p = some db') (hp : pending p = some token) :
    token ∈ db'.tokens ∧ db'.epoch = db.epoch := by
  have hinsert {db : Db} (h : db.insert token = some db') :
      token ∈ db'.tokens ∧ db'.epoch = db.epoch := by
    obtain ⟨-, h⟩ := Option.ite_none_right_eq_some.mp h
    cases h
    exact ⟨List.mem_append_right _ List.mem_cons_self, rfl⟩
  cases p with
  | issued token =>
    cases hp
    exact hinsert h
  | rotated record now token =>
    cases hp
    have hrotated : (db.revokeRows (rowOf record) fun _ ↦ now).insert token = some db' := h
    obtain ⟨hmem, hepoch⟩ := hinsert hrotated
    exact ⟨hmem, hepoch⟩
  | _ => cases hp

variable {s s' : State τ}

theorem AccessInv.session (hi : AccessInv host verify s) {m : RowLocks.Move τ Action}
    {sessions : RowLocks.State τ Db Phase UUID}
    (hs : RowLocks.step (protocol verify) s.sessions m = some sessions)
    (hdb : sessions.db = s.sessions.db ∨
      ∃ t, RefreshTokens.commit s.sessions.db (s.sessions.phase t) = some sessions.db)
    {t : τ} (hphase : ∀ u, u ≠ t → sessions.phase u = s.sessions.phase u)
    (husers : ∀ token, pending (sessions.phase t) = some token →
      token.userId ∈ s.sessions.db.users.map User.id)
    {signed : τ → Option Grant} (hothers : ∀ u, u ≠ t → signed u = s.signed u)
    (hsigned : ∀ g, signed t = some g → ∃ token, pending (sessions.phase t) = some token ∧
      Signed host s.clock g token) :
    AccessInv host verify { s with sessions := sessions, signed := signed } := by
  have hreachable : (refreshMachine τ verify).Reachable sessions := hi.sessions.next hs
  have hgrows : Grows s.sessions.db sessions.db :=
    leads_grows hi.sessions ((Machine.Leads.refl s.sessions).tail hs)
  have hids : sessions.db.users.map User.id = s.sessions.db.users.map User.id := by
    rcases hdb with hdb | ⟨u, hcommit⟩
    · rw [hdb]
    · exact commit_users hcommit
  refine ⟨hreachable, fun u token hu ↦ ?_, fun u g hu ↦ ?_, fun g hg ↦ ?_⟩
  · change token.userId ∈ sessions.db.users.map User.id
    rw [hids]
    by_cases hut : u = t
    · subst hut
      exact husers token hu
    · exact hi.users u token (by rwa [← hphase u hut])
  · by_cases hut : u = t
    · subst hut
      exact hsigned g hu
    · obtain ⟨token, hpending, hg⟩ := hi.signed u g ((hothers u hut).symm.trans hu)
      exact ⟨token, by rwa [hphase u hut], hg⟩
  · exact (hi.granted g hg).mono hgrows hids le_rfl

theorem finish_phase (verify : Text → Text → Bool) (s : RowLocks.State τ Db Phase UUID) (t u : τ)
    (db : Db) :
    (s.finish (protocol verify).idle t db).phase u = if u = t then .idle else s.phase u :=
  Function.update_apply ..

theorem AccessInv.finish (hi : AccessInv host verify s) {m : RowLocks.Move τ Action} {t : τ}
    {db : Db} (hs : RowLocks.step (protocol verify) s.sessions m =
      some (s.sessions.finish (protocol verify).idle t db))
    (hdb : db = s.sessions.db ∨
      ∃ u, RefreshTokens.commit s.sessions.db (s.sessions.phase u) = some db)
    {signed : τ → Option Grant} (hothers : ∀ u, u ≠ t → signed u = s.signed u)
    (hnone : signed t = none) :
    AccessInv host verify
      { s with sessions := s.sessions.finish (protocol verify).idle t db, signed := signed } := by
  have hidle : (s.sessions.finish (protocol verify).idle t db).phase t = .idle := by
    rw [finish_phase, if_pos rfl]
  refine hi.session hs hdb
    (fun u hu ↦ (finish_phase verify s.sessions t u db).trans (if_neg hu))
    (fun token hp ↦ ?_) hothers fun g hg ↦ ?_
  · rw [hidle] at hp
    cases hp
  · rw [hnone] at hg
    cases hg

theorem advance_phases {s sessions : RowLocks.State τ Db Phase UUID} {t : τ} {a : Action}
    (h : RowLocks.step (protocol verify) s (.advance t a) = some sessions) :
    ∃ p, advance verify s.db (s.phase t) a = some p ∧ sessions.db = s.db ∧
      sessions.phase = Function.update s.phase t p := by
  obtain ⟨t', a', p, hm, hp, -, rfl⟩ | ⟨t', a', p, k, hm, hp, -, -, rfl⟩ | ⟨t', db, hm, -⟩ |
    ⟨t', hm, -⟩ := RowLocks.step_cases h
  · cases hm
    exact ⟨p, hp, rfl, rfl⟩
  · cases hm
    exact ⟨p, hp, rfl, rfl⟩
  · cases hm
  · cases hm

theorem granted_of_commit (hi : AccessInv host verify s) {t : τ} {db : Db}
    (hc : RefreshTokens.commit s.sessions.db (s.sessions.phase t) = some db)
    (hg : s.signed t = some g) :
    Granted host db s.clock g ∧ g.epoch = s.sessions.db.epoch g.userId := by
  obtain ⟨token, hpending, hsigned⟩ := hi.signed t g hg
  obtain ⟨hstored, hsame⟩ := commit_pending hc hpending
  have hinner := inv_of_reachable hi.sessions
  have hepoch : g.epoch = s.sessions.db.epoch g.userId := by
    rw [hsigned.epoch, hsigned.userId]
    exact pending_epoch hinner.db (hinner.phase t) hpending
  refine ⟨⟨hsigned.toGenuine, ?_, ⟨token, hstored, hsigned.refreshId.symm, hsigned.userId.symm⟩,
    ?_⟩, hepoch⟩
  · rw [commit_users hc, hsigned.userId]
    exact hi.users t token hpending
  · rw [hsame]
    exact hepoch.le

theorem granted_step {m : Move τ} (hi : AccessInv host verify s)
    (h : step host τ verify s m = some s') :
    s'.granted = s.granted ∨
      ∃ g, s'.granted = s.granted ++ [g] ∧ g.epoch = s.sessions.db.epoch g.userId := by
  cases m with
  | session m =>
    cases m with
    | commit t =>
      obtain ⟨sessions, hs, h⟩ := Option.bind_eq_some_iff.mp h
      obtain ⟨db, hc, rfl⟩ := Option.map_eq_some_iff.mp hs
      split at h
      · cases h
        exact .inl rfl
      · cases h
      · next _ grant _ hg =>
        cases h
        exact .inr ⟨grant, rfl, (granted_of_commit hi hc hg).2⟩
    | advance t a =>
      obtain ⟨sessions, -, rfl⟩ := Option.map_eq_some_iff.mp h
      exact .inl rfl
    | abort t =>
      cases h
      exact .inl rfl
  | sign t =>
    simp only [step] at h
    split at h
    · split at h
      · cases h
        exact .inl rfl
      · cases h
    · cases h
  | pass duration =>
    cases h
    exact .inl rfl

theorem inv_step {m : Move τ} (hi : AccessInv host verify s)
    (h : step host τ verify s m = some s') : AccessInv host verify s' := by
  cases m with
  | session m =>
    cases m with
    | commit t =>
      obtain ⟨sessions, hs, h⟩ := Option.bind_eq_some_iff.mp h
      obtain ⟨db, hc, rfl⟩ := Option.map_eq_some_iff.mp hs
      split at h
      · next hpending =>
        cases h
        refine hi.finish hs (.inr ⟨t, hc⟩) (fun _ _ ↦ rfl)
          (Option.eq_none_iff_forall_ne_some.mpr fun g hg ↦ ?_)
        obtain ⟨token, hp, -⟩ := hi.signed t g hg
        rw [hpending] at hp
        cases hp
      · cases h
      · next _ grant _ hg =>
        cases h
        have hbase := hi.finish hs (.inr ⟨t, hc⟩)
          (fun u hu ↦ Function.update_of_ne hu none s.signed)
          (Function.update_self t none s.signed)
        refine ⟨hbase.sessions, hbase.users, hbase.signed, fun g hmem ↦ ?_⟩
        rcases List.mem_append.mp hmem with hmem | hmem
        · exact hbase.granted g hmem
        · rw [List.mem_singleton.mp hmem]
          exact (granted_of_commit hi hc hg).1
    | abort t =>
      cases h
      exact hi.finish (m := .abort t) rfl (.inl rfl)
        (fun u hu ↦ Function.update_of_ne hu none s.signed) (Function.update_self t none s.signed)
    | advance t a =>
      obtain ⟨sessions, hs, rfl⟩ := Option.map_eq_some_iff.mp h
      obtain ⟨p, hp, hdb, hphase⟩ := advance_phases hs
      have hself : sessions.phase t = p := by rw [hphase, Function.update_self]
      refine hi.session hs (.inl hdb) (fun u hu ↦ by rw [hphase, Function.update_of_ne hu])
        (fun token hpending ↦ ?_) (fun _ _ ↦ rfl) fun g hg ↦ ?_
      · rw [hself] at hpending
        exact advance_pending hp hpending
      · obtain ⟨token, hpending, -⟩ := hi.signed t g hg
        rw [advance_of_pending hpending a] at hp
        cases hp
  | sign t =>
    simp only [step] at h
    split at h
    · next token hpending hunsigned =>
      split at h
      · next access hcreated =>
        cases h
        refine ⟨hi.sessions, hi.users, fun u g hu ↦ ?_, hi.granted⟩
        by_cases hut : u = t
        · subst hut
          dsimp only at hu
          rw [Function.update_self] at hu
          cases hu
          exact ⟨token, hpending, ⟨hcreated, le_rfl⟩, rfl, rfl, rfl⟩
        · dsimp only at hu
          rw [Function.update_of_ne hut] at hu
          exact hi.signed u g hu
      · cases h
    · cases h
  | pass duration =>
    cases h
    have hclock : s.clock ≤ s.clock + duration :=
      Int.le_add_of_nonneg_right (Int.natCast_nonneg duration)
    refine ⟨hi.sessions, hi.users, fun u g hu ↦ ?_, fun g hg ↦ ?_⟩
    · obtain ⟨token, hpending, hsigned⟩ := hi.signed u g hu
      exact ⟨token, hpending, hsigned.mono hclock⟩
    · exact (hi.granted g hg).mono (Grows.refl _) rfl hclock

theorem inv_reachable (h : (accessMachine host τ verify).Reachable s) :
    AccessInv host verify s := by
  refine h.invariant (AccessInv host verify) ?_ fun _ _ _ hi hs ↦ inv_step hi hs
  rintro s ⟨hsessions, hsigned, hgranted⟩
  refine ⟨.start hsessions, fun t token hp ↦ ?_, fun t g hg ↦ ?_, fun g hg ↦ ?_⟩
  · rw [hsessions.2.1 t] at hp
    cases hp
  · rw [hsigned t] at hg
    cases hg
  · rw [hgranted] at hg
    cases hg

/-- A request with an access token is taken for one of its user. -/
def Accepted (host : TokenHost) (s : State τ) (g : Grant) : Prop :=
  ∃ u ∈ s.sessions.db.users, u.id = g.userId ∧
    getCurrentUser host (bearerHeader g.token) s.sessions.db.users s.clock = .ok u

omit [DecidableEq τ] in
theorem accepted_iff (h : Granted host s.sessions.db s.clock g) :
    Accepted host s g ↔ s.clock < host.settings.expiry g.issuedAt := by
  have hcurrent := getCurrentUser_created h.created h.past h.user
  by_cases hexpiry : s.clock < host.settings.expiry g.issuedAt
  · rw [if_pos hexpiry] at hcurrent
    exact iff_of_true hcurrent hexpiry
  · rw [if_neg hexpiry] at hcurrent
    refine iff_of_false ?_ hexpiry
    rintro ⟨u, -, -, hu⟩
    rw [hcurrent] at hu
    cases hu

theorem commit_sessions {t : τ} (h : step host τ verify s (.session (.commit t)) = some s') :
    s'.clock = s.clock ∧
      RowLocks.step (protocol verify) s.sessions (.commit t) = some s'.sessions := by
  obtain ⟨sessions, hs, h⟩ := Option.bind_eq_some_iff.mp h
  split at h
  · cases h
    exact ⟨rfl, hs⟩
  · cases h
  · cases h
    exact ⟨rfl, hs⟩

theorem step_sessions {m : Move τ} (h : step host τ verify s m = some s') :
    s.clock ≤ s'.clock ∧ (s'.sessions = s.sessions ∨
      ∃ m', RowLocks.step (protocol verify) s.sessions m' = some s'.sessions) := by
  cases m with
  | session m =>
    cases m with
    | commit t =>
      obtain ⟨hclock, hs⟩ := commit_sessions h
      exact ⟨hclock.ge, .inr ⟨_, hs⟩⟩
    | advance t a =>
      obtain ⟨sessions, hs, rfl⟩ := Option.map_eq_some_iff.mp h
      exact ⟨le_rfl, .inr ⟨_, hs⟩⟩
    | abort t =>
      cases h
      exact ⟨le_rfl, .inr ⟨.abort t, rfl⟩⟩
  | sign t =>
    simp only [step] at h
    split at h
    · split at h
      · cases h
        exact ⟨le_rfl, .inl rfl⟩
      · cases h
    · cases h
  | pass duration =>
    cases h
    exact ⟨Int.le_add_of_nonneg_right (Int.natCast_nonneg duration), .inl rfl⟩

theorem leads_later {s₁ s₂ : State τ} (h : (accessMachine host τ verify).Reachable s₁)
    (hl : (accessMachine host τ verify).Leads s₁ s₂) :
    s₁.clock ≤ s₂.clock ∧ Grows s₁.sessions.db s₂.sessions.db := by
  have htrans (s t u : State τ) (h : s.clock ≤ t.clock ∧ Grows s.sessions.db t.sessions.db)
      (h' : t.clock ≤ u.clock ∧ Grows t.sessions.db u.sessions.db) :
      s.clock ≤ u.clock ∧ Grows s.sessions.db u.sessions.db := ⟨h.1.trans h'.1, h.2.trans h'.2⟩
  refine hl.related (fun s s' ↦ s.clock ≤ s'.clock ∧ Grows s.sessions.db s'.sessions.db)
    (fun s ↦ ⟨le_rfl, Grows.refl _⟩) htrans (fun s m s' hs hstep ↦ ?_) h
  obtain ⟨hclock, hsame | ⟨m', hm'⟩⟩ := step_sessions hstep
  · exact ⟨hclock, hsame ▸ Grows.refl _⟩
  · have hsessions := (inv_reachable hs).sessions
    exact ⟨hclock, leads_grows hsessions ((Machine.Leads.refl s.sessions).tail hm')⟩

theorem changed_epoch {t : τ} {user : User} {hash : Text} {revoked : List UUID} {now : Instant}
    (hphase : s.sessions.phase t = .changed user hash revoked now)
    (h : RowLocks.step (protocol verify) s.sessions (.commit t) = some s'.sessions) :
    s'.sessions.db.epoch user.id = s.sessions.db.epoch user.id + 1 := by
  obtain ⟨db, hdb, hfinish⟩ := Option.map_eq_some_iff.mp h
  rw [hphase] at hdb
  obtain rfl := Option.some.inj hdb
  rw [← hfinish]
  exact Function.update_self ..

/-- An access token is one of those that there were, or goes back to a login that has seen all
password changes up to then. -/
theorem granted_leads {s₁ s₂ : State τ} (h : (accessMachine host τ verify).Reachable s₁)
    (hl : (accessMachine host τ verify).Leads s₁ s₂) :
    ∀ g ∈ s₂.granted, g ∈ s₁.granted ∨ s₁.sessions.db.epoch g.userId ≤ g.epoch := by
  induction hl with
  | refl => exact fun g hg ↦ .inl hg
  | @tail s s' hl hstep ih =>
    obtain ⟨m, hs⟩ := hstep
    intro g hg
    rcases granted_step (inv_reachable (Machine.Leads.reachable h hl)) hs with hsame |
      ⟨g', hnew, hepoch⟩
    · exact ih g (hsame ▸ hg)
    · rw [hnew] at hg
      rcases List.mem_append.mp hg with hg | hg
      · exact ih g hg
      · rw [List.mem_singleton.mp hg, hepoch]
        exact .inr ((leads_later h hl).2.1 _)

/-- A client is let in with an access token until it expires and no longer, whatever becomes
of its session. So a password change ends the access of all clients once the lifetime of an access
token has passed, but of those that have logged in after it. -/
theorem access_lifetime (h : (accessMachine host τ verify).Reachable s) :
    (∀ g ∈ s.granted, (Accepted host s g ↔ s.clock < host.settings.expiry g.issuedAt) ∧
      g.issuedAt ≤ s.clock ∧ host.settings.expiry g.issuedAt ≤ g.issuedAt + host.settings.lifetime ∧
      ∃ r ∈ s.sessions.db.tokens, r.id = g.refreshId ∧ r.userId = g.userId) ∧
    ∀ t user hash revoked now s₁ s₂, s.sessions.phase t = .changed user hash revoked now →
      (accessMachine host τ verify).step s (.session (.commit t)) = some s₁ →
      (accessMachine host τ verify).Leads s₁ s₂ → s.clock + host.settings.lifetime ≤ s₂.clock →
      ∀ g ∈ s₂.granted, g.userId = user.id → Accepted host s₂ g →
        g ∉ s₁.granted ∧ s.sessions.db.epoch user.id < g.epoch := by
  constructor
  · intro g hg
    have hgranted := (inv_reachable h).granted g hg
    exact ⟨accepted_iff hgranted, hgranted.past, expiry_le _ _, hgranted.refresh⟩
  · intro t user hash revoked now s₁ s₂ hphase hc hl hpassed g hg huser haccepted
    have h₁ := h.next hc
    have hi₁ := inv_reachable h₁
    have hstep : step host τ verify s (.session (.commit t)) = some s₁ := hc
    obtain ⟨hclock, hsessions⟩ := commit_sessions hstep
    have hgranted := (inv_reachable (hl.reachable h₁)).granted g hg
    have hexpiry := (accepted_iff hgranted).mp haccepted
    have hold : g ∉ s₁.granted := by
      intro hmem
      -- it was signed before the change, and has expired by now
      have hpast : g.issuedAt ≤ s.clock := hclock ▸ (hi₁.granted g hmem).past
      have hend := (expiry_le host.settings g.issuedAt).trans (Int.add_le_add_right hpast _)
      exact absurd hexpiry (not_lt.mpr (hend.trans hpassed))
    refine ⟨hold, ?_⟩
    rcases granted_leads h₁ hl g hg with hmem | hepoch
    · exact absurd hmem hold
    · rw [huser, changed_epoch hphase hsessions] at hepoch
      exact hepoch

end

def sampleStart : State ℕ := ⟨RefreshTokens.sampleStart, 0, fun _ ↦ none, []⟩

def sampleLogin (t : ℕ) (id : UUID) (tokenHash : Text) : List (Move ℕ) :=
  [.session (.advance t (.login ['e'] ['p'])), .session (.advance t (.issue id tokenHash 10)),
    .sign t, .session (.commit t)]

def beforeChange : List (Move ℕ) :=
  sampleLogin 0 (sampleId 2) ['a'] ++
    [.session (.advance 1 (.reauthenticate (sampleId 1) ['p'])),
      .session (.advance 1 (.rehash ['x'])), .session (.advance 1 (.revokeAll 20))]

def afterChange : List (Move ℕ) := .pass 60000000 :: sampleLogin 2 (sampleId 3) ['b']

def sampleMachine : Machine (State ℕ) (Move ℕ) :=
  accessMachine sampleTokenHost ℕ fun _ _ ↦ true

theorem sample_before : ∃ s g hash revoked, sampleMachine.exec sampleStart beforeChange = some s ∧
    s.granted = [g] ∧ g.issuedAt = 0 ∧ s.clock = 0 ∧
    s.sessions.phase 1 = .changed ⟨sampleId 1, ['e'], ['h']⟩ hash revoked 20 ∧
    ∃ s₁ s₂ g', sampleMachine.step s (.session (.commit 1)) = some s₁ ∧
      sampleMachine.exec s₁ afterChange = some s₂ ∧ s₂.clock = 60000000 ∧
      s₂.granted = [g, g'] ∧ g'.userId = sampleId 1 ∧ g'.issuedAt = 60000000 :=
  ⟨_, _, _, _, rfl, rfl, rfl, rfl, rfl, _, _, _, rfl, rfl, rfl, rfl, rfl, rfl⟩

theorem access_lifetime_sample : ∃ s g s₂ g', sampleMachine.Reachable s ∧ g ∈ s.granted ∧
    Accepted sampleTokenHost s g ∧ sampleMachine.Reachable s₂ ∧ g ∈ s₂.granted ∧
    ¬ Accepted sampleTokenHost s₂ g ∧ g' ∈ s₂.granted ∧ Accepted sampleTokenHost s₂ g' ∧
    s.sessions.db.epoch (sampleId 1) < g'.epoch := by
  obtain ⟨s, g, hash, revoked, hbefore, hg, hissued, hclock, hphase, s₁, s₂, g', hcommit, hafter,
    hclock₂, hgranted, huser, hissued'⟩ := sample_before
  have hstart : sampleMachine.Reachable sampleStart :=
    .start ⟨⟨rfl, fun _ ↦ rfl, fun _ ↦ rfl⟩, fun _ ↦ rfl, rfl⟩
  have hs := hstart.exec hbefore
  have hs₂ := (hs.next hcommit).exec hafter
  have hmem : g ∈ s.granted := by
    rw [hg]
    exact List.mem_cons_self
  have hmem₂ : g ∈ s₂.granted ∧ g' ∈ s₂.granted := by
    rw [hgranted]
    exact ⟨List.mem_cons_self, List.mem_cons_of_mem _ List.mem_cons_self⟩
  obtain ⟨hnow, hchange⟩ := access_lifetime hs
  obtain ⟨hlater, -⟩ := access_lifetime hs₂
  have haccepted : Accepted sampleTokenHost s g := by
    rw [(hnow g hmem).1, hclock, hissued]
    decide
  have hexpired : ¬ Accepted sampleTokenHost s₂ g := by
    rw [(hlater g hmem₂.1).1, hclock₂, hissued]
    decide
  have haccepted' : Accepted sampleTokenHost s₂ g' := by
    rw [(hlater g' hmem₂.2).1, hclock₂, hissued']
    decide
  have hpassed : s.clock + sampleTokenHost.settings.lifetime ≤ s₂.clock := by
    rw [hclock, hclock₂]
    decide
  have hseen := (hchange 1 _ hash revoked 20 s₁ s₂ hphase hcommit (.exec hafter) hpassed g' hmem₂.2
    huser haccepted').2
  exact ⟨s, g, s₂, g', hs, hmem, haccepted, hs₂, hmem₂.1, hexpired, hmem₂.2, haccepted', hseen⟩

end LearningTasks.Services.AccessLifetime
