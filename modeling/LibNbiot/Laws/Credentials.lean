/-
# The credentials of an initialized library

Only the first entry into the initial state builds the client id. When that
entry fails, the library gets to the Error state, and from there back to the
initial state by a timeout; the modem is then initialized again, but the
credentials are not looked at. So the credentials are there in an initialized
library exactly when the first entry has initialized it.
-/

import LibNbiot.Laws.History
import LibNbiot.Ledger.Runs

namespace LibNbiot

open Logic.Program Relation

/-- The credentials are there if the library is initialized. -/
def CredentialsThere (s : Sys) : Prop :=
  s.rest.pool.initialized = true →
    s.rest.pool.authLogin ≠ [] ∧
      s.rest.pool.authentication = s.rest.pool.authLogin ++ s.rest.pool.authPasswd

instance (s : Sys) : Decidable (CredentialsThere s) := by
  unfold CredentialsThere
  infer_instance

/-- The first entry into the initial state initializes the library. -/
def Setting.FirstInitialized (setting : Setting) : Prop :=
  (firstEntry (nbiotConfig setting.conf setting.construct).2).2.rest.pool.initialized = true

/-- The credentials in the ledger. -/
def Ledger.credentials (k : Ledger) : Bytes × Bytes × Bytes :=
  (k.authLogin, k.authPasswd, k.authentication)

theorem Ledger.Untouched.credentials {k k' : Ledger} (h : k.Untouched k') :
    k'.credentials = k.credentials := by
  simp only [Ledger.credentials, h.authLogin, h.authPasswd, h.authentication]

theorem Change.credentials {C : Option MessageHandler → List ApiCall → Bytes → Prop} {k k' : Ledger}
    (h : Change C k k') : k'.credentials = k.credentials := by
  cases h with
  | enqueue h => exact h.untouched.credentials
  | dispatch pushed hpushed h => exact h.untouched.credentials
  | _ => rfl

/-! ## A library that was never started -/

theorem Drains.unstarted {es : List StmEvent} {k k' : Ledger} (h : Drains es k k')
    (hk : k.state = none) : k'.state = none ∧ k'.initialized = k.initialized := by
  induction h with
  | done k => exact ⟨hk, rfl⟩
  | @handle e es k k₁ k' h hrest ih =>
    cases h with
    | ignored h => exact ih hk
    | taken t k₁ h htrigger =>
      have hnone : k.state.bind (·.transitionFor e) = some t := h
      rw [hk] at hnone
      cases hnone

/-- Without a current state nothing initializes the library. -/
def Ledger.Unstarted (k : Ledger) : Prop := k.state = none ∧ k.initialized = false

theorem Change.unstarted {C : Option MessageHandler → List ApiCall → Bytes → Prop} {k k' : Ledger}
    (h : Change C k k') (hk : k.Unstarted) : k'.Unstarted := by
  cases h with
  | enqueue h =>
    obtain ⟨cs, -, rfl⟩ := h
    exact hk
  | dispatch pushed hpushed h =>
    obtain ⟨timer, timeout, k', htimer, htimeout, h⟩ := h
    obtain ⟨hstate, hinit⟩ := h.unstarted hk.1
    exact ⟨hstate, hinit.trans hk.2⟩
  | _ => exact hk

/-! ## The law -/

/-- The credentials of a run are those of its start. -/
theorem credentials_after (setting : Setting) (calls : List ApiCall) :
    (ledger (setting.after calls)).credentials = (ledger setting.boot).credentials := by
  have hrun := after_books (C := fun _ _ _ => True) setting calls fun _ _ _ _ _ _ _ _ _ _ _ _ => trivial
  exact (hrun.keeps (J := fun k => k.credentials = (ledger setting.boot).credentials) trivial
    (fun _ h hk => h.credentials.trans hk) rfl).2

theorem unstarted_after (setting : Setting) (calls : List ApiCall)
    (h : (ledger setting.boot).Unstarted) : (ledger (setting.after calls)).Unstarted := by
  have hrun := after_books (C := fun _ _ _ => True) setting calls fun _ _ _ _ _ _ _ _ _ _ _ _ => trivial
  exact (hrun.keeps trivial (fun _ h hk => h.unstarted hk) h).2

/-- **Initialized means credentials are there** exactly when the first entry into
the initial state has initialized the library, or it is not initialized. -/
theorem credentialsThere_after_iff (setting : Setting) (calls : List ApiCall) :
    CredentialsThere (setting.after calls) ↔
      ((setting.after calls).rest.pool.initialized = true → setting.FirstInitialized) := by
  obtain ⟨authLogin, authPasswd, maxTopics, hconfig⟩ := config_ledger setting
  obtain hstays | hstarts := nbiotStart_cases (nbiotConfig setting.conf setting.construct).2
  · have hunstarted : (ledger setting.boot).Unstarted := by
      have hboot : ledger setting.boot = .fresh authLogin authPasswd maxTopics :=
        hstays.trans hconfig
      rw [hboot]
      exact ⟨rfl, rfl⟩
    have hinit : (setting.after calls).rest.pool.initialized = false :=
      (unstarted_after setting calls hunstarted).2
    simp [CredentialsThere, hinit]
  · have hfirst := firstEntry_initializes (nbiotConfig setting.conf setting.construct).2
    rw [hconfig] at hfirst
    have hcredentials := (credentials_after setting calls).trans hstarts.untouched.credentials
    unfold CredentialsThere Setting.FirstInitialized
    refine forall_congr' fun hinit => ?_
    generalize (firstEntry (nbiotConfig setting.conf setting.construct).2).2 = s₁
      at hfirst hcredentials ⊢
    generalize setting.after calls = s at hcredentials ⊢
    change (ledger s).authLogin ≠ [] ∧ (ledger s).authentication =
      (ledger s).authLogin ++ (ledger s).authPasswd ↔ (ledger s₁).initialized = true
    generalize ledger s₁ = k at hfirst hcredentials ⊢
    simp only [Ledger.credentials, Prod.mk.injEq] at hcredentials
    obtain ⟨hlogin, hpasswd, hauthentication⟩ := hcredentials
    rw [hlogin, hpasswd, hauthentication]
    cases hfirst with
    | failed timeout =>
      refine ⟨fun h => absurd ?_ h.1, nofun⟩
      exact (List.append_eq_nil_iff.1 h.2.symm).1
    | succeeded login timeout hne => exact ⟨fun _ => rfl, fun _ => ⟨hne, rfl⟩⟩

/-- The modem cannot be initialized at first, and only a minute later. -/
def lateModem : Setting := .script [] 20000 0 fun d n => d = .modemInit && n < 1

/-- A library that is initialized by a timeout has no credentials. -/
theorem not_credentialsThere_after_timeout :
    ¬CredentialsThere (lateModem.after (List.replicate 6 (.eventLoop .active))) := by
  decide +kernel

end LibNbiot
