/-
  OpenVpnAndroid/PasswordCache.lean
  =================================
  **The passwords that are kept for a connection.**

  `LaunchVPN` hands the passwords that the user typed to the service, which keeps them
  in the only instance of `PasswordCache` until OpenVPN asks for them.  There is one
  instance for all profiles: a call for another UUID replaces it, passwords and all.

  `getPassword_eq_some_iff` says after any calls which password a profile gets, and
  `getPassword_congr` that it does not depend on what was set for other profiles.
-/
import OpenVpnAndroid.Machine
import OpenVpnAndroid.UuidText
import OpenVpnAndroid.VpnProfile

namespace OpenVpnAndroid

structure PasswordCache where
  mUuid : UUID
  mKeyOrPkcs12Password : Option Text := none
  mAuthPassword : Option Text := none
deriving DecidableEq, Repr

namespace PasswordCache

def PCKS12ORCERTPASSWORD : Int32 := 2

def AUTHPASSWORD : Int32 := 3

/-- `getInstance`; the result is `mInstance` from then on. -/
def getInstance (mInstance : Option PasswordCache) (uuid : UUID) : PasswordCache :=
  match mInstance with
  | some cache => if cache.mUuid = uuid then cache else { mUuid := uuid }
  | none => { mUuid := uuid }

/-- The password and `mInstance` behind the call; so for the other method. -/
def getPKCS12orCertificatePassword (mInstance : Option PasswordCache) (uuid : UUID)
    (resetPw : Bool) : Option Text × Option PasswordCache :=
  let cache := getInstance mInstance uuid
  let pwcopy := cache.mKeyOrPkcs12Password
  if resetPw then
    (pwcopy, some { getInstance (some cache) uuid with mKeyOrPkcs12Password := none })
  else (pwcopy, some cache)

def getAuthPassword (mInstance : Option PasswordCache) (uuid : UUID) (resetPW : Bool) :
    Option Text × Option PasswordCache :=
  let cache := getInstance mInstance uuid
  let pwcopy := cache.mAuthPassword
  if resetPW then (pwcopy, some { getInstance (some cache) uuid with mAuthPassword := none })
  else (pwcopy, some cache)

/-- `mInstance` behind the call, or `none` for the exception of `UUID.fromString`. -/
def setCachedPassword (mInstance : Option PasswordCache) (uuid : Text) (type : Int32)
    (password : Option Text) : Option (Option PasswordCache) := do
  let cache := getInstance mInstance (← UUID.fromString uuid)
  if type = PCKS12ORCERTPASSWORD then some (some { cache with mKeyOrPkcs12Password := password })
  else if type = AUTHPASSWORD then some (some { cache with mAuthPassword := password })
  else some (some cache)

end PasswordCache

/-! ### Calls in any order -/

inductive PasswordType where
  | pkcs12orCert
  | auth
deriving DecidableEq, Repr

inductive PasswordCall where
  | setCachedPassword (uuid : Text) (type : Int32) (password : Option Text)
  | getPassword (type : PasswordType) (uuid : UUID) (resetPw : Bool)
deriving DecidableEq, Repr

namespace PasswordCache

open PasswordType

def code : PasswordType → Int32
  | pkcs12orCert => PCKS12ORCERTPASSWORD
  | auth => AUTHPASSWORD

theorem code_ne : PCKS12ORCERTPASSWORD ≠ AUTHPASSWORD := by decide

def getPassword : PasswordType → Option PasswordCache → UUID → Bool →
    Option Text × Option PasswordCache
  | pkcs12orCert => getPKCS12orCertificatePassword
  | auth => getAuthPassword

/-- `mInstance` over a run of calls; one that throws leaves it as it is. -/
def passwordCache : Machine (Option PasswordCache) PasswordCall where
  initial := none
  step mInstance
    | .setCachedPassword uuid type password =>
        (setCachedPassword mInstance uuid type password).getD mInstance
    | .getPassword type uuid resetPw => (getPassword type mInstance uuid resetPw).2

end PasswordCache

namespace PasswordCall

/-- The UUID that the call is for; a text that is none throws. -/
def uuid : PasswordCall → Option UUID
  | setCachedPassword name _ _ => UUID.fromString name
  | getPassword _ uuid _ => some uuid

/-- The call sets the password of this type for the UUID. -/
def Sets (call : PasswordCall) (type : PasswordType) (uuid : UUID) (password : Option Text) :
    Prop :=
  ∃ name, UUID.fromString name = some uuid ∧
    call = setCachedPassword name (PasswordCache.code type) password

/-- The call gets the password of this type for the UUID, and resets it. -/
def Resets (call : PasswordCall) (type : PasswordType) (uuid : UUID) : Prop :=
  call = getPassword type uuid true

def IsForOther (call : PasswordCall) (uuid : UUID) : Prop :=
  ∃ uuid', call.uuid = some uuid' ∧ uuid' ≠ uuid

/-- After the call the password of this type is what it was. -/
def Keeps (call : PasswordCall) (type : PasswordType) (uuid : UUID) : Prop :=
  (∀ password, ¬ call.Sets type uuid password) ∧ ¬ call.Resets type uuid ∧
    ¬ call.IsForOther uuid

end PasswordCall

namespace PasswordCache

/-! ### One call -/

/-- The field for passwords of this type. -/
def slot : PasswordType → PasswordCache → Option Text
  | .pkcs12orCert => mKeyOrPkcs12Password
  | .auth => mAuthPassword

@[simp] theorem getPassword_fst (type : PasswordType) (mInstance : Option PasswordCache)
    (uuid : UUID) (resetPw : Bool) :
    (getPassword type mInstance uuid resetPw).1 = slot type (getInstance mInstance uuid) := by
  cases type <;> cases resetPw <;> rfl

theorem mUuid_getInstance (mInstance : Option PasswordCache) (uuid : UUID) :
    (getInstance mInstance uuid).mUuid = uuid := by
  unfold getInstance
  split
  · split
    · assumption
    · rfl
  · rfl

@[simp] theorem getInstance_self {cache : PasswordCache} {uuid : UUID} (h : cache.mUuid = uuid) :
    getInstance (some cache) uuid = cache := by
  simp [getInstance, h]

theorem getInstance_other {cache : PasswordCache} {uuid : UUID} (h : cache.mUuid ≠ uuid) :
    getInstance (some cache) uuid = { mUuid := uuid } := by
  simp [getInstance, h]

@[simp] theorem slot_new (type : PasswordType) (uuid : UUID) :
    slot type { mUuid := uuid } = none := by
  cases type <;> rfl

/-- What a get leaves. -/
theorem getPassword_snd (type : PasswordType) (mInstance : Option PasswordCache) (uuid : UUID)
    (resetPw : Bool) :
    ∃ cache, (getPassword type mInstance uuid resetPw).2 = some cache ∧ cache.mUuid = uuid ∧
      ∀ type', slot type' cache =
        if resetPw ∧ type' = type then none else slot type' (getInstance mInstance uuid) := by
  have huuid := mUuid_getInstance mInstance uuid
  cases resetPw with
  | false => cases type <;> exact ⟨_, rfl, huuid, fun type' => by simp⟩
  | true =>
      cases type with
      | pkcs12orCert =>
          refine ⟨{ getInstance mInstance uuid with mKeyOrPkcs12Password := none }, ?_, huuid,
            fun type' => by cases type' <;> simp [slot]⟩
          simp [getPassword, getPKCS12orCertificatePassword, huuid]
      | auth =>
          refine ⟨{ getInstance mInstance uuid with mAuthPassword := none }, ?_, huuid,
            fun type' => by cases type' <;> simp [slot]⟩
          simp [getPassword, getAuthPassword, huuid]

/-- What a set leaves. -/
theorem setCachedPassword_eq (mInstance : Option PasswordCache) {name : Text} {uuid : UUID}
    (h : UUID.fromString name = some uuid) (type : Int32) (password : Option Text) :
    ∃ cache, setCachedPassword mInstance name type password = some (some cache) ∧
      cache.mUuid = uuid ∧ ∀ type', slot type' cache =
        if type = code type' then password else slot type' (getInstance mInstance uuid) := by
  have huuid := mUuid_getInstance mInstance uuid
  simp only [setCachedPassword, h, Option.bind_eq_bind, Option.bind_some]
  by_cases hkey : type = PCKS12ORCERTPASSWORD
  · subst hkey
    exact ⟨_, rfl, huuid, fun type' => by cases type' <;> simp [slot, code, code_ne]⟩
  by_cases hauth : type = AUTHPASSWORD
  · subst hauth
    exact ⟨_, rfl, huuid, fun type' => by cases type' <;> simp [slot, code, hkey]⟩
  · rw [if_neg hkey, if_neg hauth]
    exact ⟨_, rfl, huuid, fun type' => by cases type' <;> simp [code, hkey, hauth]⟩

theorem sets_iff {name : Text} {type' : Int32} {password password' : Option Text}
    {type : PasswordType} {uuid : UUID} :
    (PasswordCall.setCachedPassword name type' password).Sets type uuid password' ↔
      UUID.fromString name = some uuid ∧ type' = code type ∧ password = password' := by
  simp only [PasswordCall.Sets, PasswordCall.setCachedPassword.injEq]
  constructor
  · rintro ⟨_, hname, rfl, rfl, rfl⟩
    exact ⟨hname, rfl, rfl⟩
  · rintro ⟨hname, rfl, rfl⟩
    exact ⟨name, hname, rfl, rfl, rfl⟩

theorem keeps_set_iff {name : Text} {type' : Int32} {password : Option Text}
    {type : PasswordType} {uuid : UUID} :
    (PasswordCall.setCachedPassword name type' password).Keeps type uuid ↔
      ∀ uuid' ∈ UUID.fromString name, uuid' = uuid ∧ type' ≠ code type := by
  simp only [PasswordCall.Keeps, sets_iff, PasswordCall.Resets, PasswordCall.IsForOther,
    PasswordCall.uuid, Option.mem_def]
  constructor
  · rintro ⟨hset, -, hother⟩ uuid' huuid'
    obtain rfl : uuid' = uuid := by_contra fun hne => hother ⟨uuid', huuid', hne⟩
    exact ⟨rfl, fun htype => hset password ⟨huuid', htype, rfl⟩⟩
  · intro h
    refine ⟨fun _ hset => (h uuid hset.1).2 hset.2.1, fun hget => (nomatch hget), ?_⟩
    rintro ⟨uuid', huuid', hne⟩
    exact hne (h uuid' huuid').1

theorem keeps_get_iff {type type' : PasswordType} {uuid uuid' : UUID} {resetPw : Bool} :
    (PasswordCall.getPassword type' uuid' resetPw).Keeps type uuid ↔
      uuid' = uuid ∧ ¬ (resetPw = true ∧ type = type') := by
  simp only [PasswordCall.Keeps, PasswordCall.Sets, PasswordCall.Resets,
    PasswordCall.IsForOther, PasswordCall.uuid, PasswordCall.getPassword.injEq]
  constructor
  · rintro ⟨-, hreset, hother⟩
    obtain rfl : uuid' = uuid := by_contra fun hne => hother ⟨uuid', rfl, hne⟩
    exact ⟨rfl, fun ⟨hflag, htype⟩ => hreset ⟨htype.symm, rfl, hflag⟩⟩
  · rintro ⟨rfl, hnot⟩
    refine ⟨by simp, fun ⟨htype, _, hflag⟩ => hnot ⟨hflag, htype.symm⟩, ?_⟩
    rintro ⟨uuid, huuid, hne⟩
    exact hne (Option.some.inj huuid).symm

/-- What a profile finds behind a call. -/
theorem slot_step (type : PasswordType) (uuid : UUID) (p : Text)
    (mInstance : Option PasswordCache) (call : PasswordCall) :
    slot type (getInstance (passwordCache.step mInstance call) uuid) = some p ↔
      call.Sets type uuid (some p) ∨
        slot type (getInstance mInstance uuid) = some p ∧ call.Keeps type uuid := by
  cases call with
  | setCachedPassword name type' password =>
      rw [sets_iff, keeps_set_iff]
      cases hname : UUID.fromString name with
      | none =>
          -- an exception
          simp [passwordCache, setCachedPassword, hname]
      | some uuid' =>
          obtain ⟨cache, hset, hcache, hslot⟩ :=
            setCachedPassword_eq mInstance hname type' password
          have hstep : passwordCache.step mInstance (.setCachedPassword name type' password) =
              some cache := by
            simp [passwordCache, hset]
          by_cases huuid : uuid' = uuid
          · subst huuid
            rw [hstep, getInstance_self hcache, hslot]
            by_cases htype : type' = code type <;> simp [htype]
          · rw [hstep, getInstance_other (by rwa [hcache])]
            simp [huuid]
  | getPassword type' uuid' resetPw =>
      obtain ⟨cache, hget, hcache, hslot⟩ := getPassword_snd type' mInstance uuid' resetPw
      have hstep : passwordCache.step mInstance (.getPassword type' uuid' resetPw) =
          some cache := hget
      rw [keeps_get_iff]
      by_cases huuid : uuid' = uuid
      · subst huuid
        rw [hstep, getInstance_self hcache, hslot]
        by_cases hreset : resetPw = true ∧ type = type' <;> simp [hreset, PasswordCall.Sets]
      · rw [hstep, getInstance_other (by rwa [hcache])]
        simp [huuid, PasswordCall.Sets]

/-! ### All calls -/

theorem slot_run (calls : List PasswordCall) (type : PasswordType) (uuid : UUID) (p : Text) :
    slot type (getInstance (passwordCache.run calls) uuid) = some p ↔
      ∃ before call after, calls = before ++ call :: after ∧ call.Sets type uuid (some p) ∧
        ∀ later ∈ after, later.Keeps type uuid := by
  refine Machine.since (M := passwordCache)
    (P := fun mInstance => slot type (getInstance mInstance uuid) = some p) ?_ ?_ calls
  · simp [passwordCache, getInstance]
  · exact slot_step type uuid p

/-- A get returns the password that was set last for this UUID and type, unless it was
    reset or a call for another UUID came in between. -/
theorem getPassword_eq_some_iff (calls : List PasswordCall) (type : PasswordType) (uuid : UUID)
    (resetPw : Bool) (p : Text) :
    (getPassword type (passwordCache.run calls) uuid resetPw).1 = some p ↔
      ∃ before call after, calls = before ++ call :: after ∧ call.Sets type uuid (some p) ∧
        ∀ later ∈ after, (∀ password, ¬ later.Sets type uuid password) ∧
          ¬ later.Resets type uuid ∧ ¬ later.IsForOther uuid := by
  rw [getPassword_fst]
  exact slot_run calls type uuid p

/-- Calls that may differ in a password for another profile, or of the other type. -/
inductive SameFor (type : PasswordType) (uuid : UUID) : PasswordCall → PasswordCall → Prop
  | same (call : PasswordCall) : SameFor type uuid call call
  | set (name : Text) (type' : Int32) (password password' : Option Text)
      (h : ¬ (UUID.fromString name = some uuid ∧ type' = code type)) :
      SameFor type uuid (.setCachedPassword name type' password)
        (.setCachedPassword name type' password')

theorem SameFor.slot_step {type : PasswordType} {uuid : UUID} {call call' : PasswordCall}
    (h : SameFor type uuid call call') {s s' : Option PasswordCache}
    (hs : slot type (getInstance s uuid) = slot type (getInstance s' uuid)) :
    slot type (getInstance (passwordCache.step s call) uuid) =
      slot type (getInstance (passwordCache.step s' call') uuid) := by
  apply Option.ext
  intro p
  rw [PasswordCache.slot_step, PasswordCache.slot_step, hs]
  cases h with
  | same => rfl
  | set name type' password password' hother =>
      rw [sets_iff, sets_iff, keeps_set_iff, keeps_set_iff]
      constructor <;> rintro (⟨hname, htype, -⟩ | hkept)
      · exact absurd ⟨hname, htype⟩ hother
      · exact Or.inr hkept
      · exact absurd ⟨hname, htype⟩ hother
      · exact Or.inr hkept

/-- Nothing shows of the passwords of other profiles or of the other type. -/
theorem getPassword_congr {calls calls' : List PasswordCall} {type : PasswordType} {uuid : UUID}
    (h : List.Forall₂ (SameFor type uuid) calls calls') (resetPw : Bool) :
    (getPassword type (passwordCache.run calls) uuid resetPw).1 =
      (getPassword type (passwordCache.run calls') uuid resetPw).1 := by
  have hfrom : ∀ s s', slot type (getInstance s uuid) = slot type (getInstance s' uuid) →
      slot type (getInstance (passwordCache.runFrom s calls) uuid) =
        slot type (getInstance (passwordCache.runFrom s' calls') uuid) := by
    induction h with
    | nil => exact fun _ _ hs => hs
    | cons hcall _ ih => exact fun s s' hs => ih _ _ (hcall.slot_step hs)
  rw [getPassword_fst, getPassword_fst]
  exact hfrom none none rfl

/-- Where nothing was set, nothing is found. -/
theorem getPassword_eq_none {calls : List PasswordCall} {type : PasswordType} {uuid : UUID}
    (h : ∀ call ∈ calls, ∀ p, ¬ call.Sets type uuid (some p)) (resetPw : Bool) :
    (getPassword type (passwordCache.run calls) uuid resetPw).1 = none := by
  rw [getPassword_fst, Option.eq_none_iff_forall_ne_some]
  intro p hp
  obtain ⟨before, call, after, rfl, hset, -⟩ := (slot_run calls type uuid p).mp hp
  exact h call (by simp) p hset

end PasswordCache

/-! ### The profile that asks -/

/-- The passwords in a `VpnProfile`, and what decides on them. -/
structure ProfilePasswords where
  mUuid : UUID
  mAuthenticationType : AuthenticationType
  mPassword : Option Text
  mKeyPassword : Option Text
  mPKCS12Password : Option Text
deriving DecidableEq, Repr

namespace VpnProfile

open PasswordCache

/-- OpenVPN asks for "Private Key". -/
def getPasswordPrivateKey (profile : ProfilePasswords) (mInstance : Option PasswordCache) :
    Option Text × Option PasswordCache :=
  let (cachedPw, mInstance) := getPKCS12orCertificatePassword mInstance profile.mUuid true
  match cachedPw with
  | some pw => (some pw, mInstance)
  | none =>
      match profile.mAuthenticationType with
      | .pkcs12 | .userpassPkcs12 => (profile.mPKCS12Password, mInstance)
      | .certificates | .userpassCertificates => (profile.mKeyPassword, mInstance)
      | _ => (none, mInstance)

/-- OpenVPN asks for "Auth". -/
def getPasswordAuth (profile : ProfilePasswords) (mInstance : Option PasswordCache) :
    Option Text × Option PasswordCache :=
  let (cachedPw, mInstance) := getAuthPassword mInstance profile.mUuid true
  match cachedPw with
  | some pw => (some pw, mInstance)
  | none => (profile.mPassword, mInstance)

/-- The password in the profile that OpenVPN wants for "Private Key". -/
def ownKeyPassword (profile : ProfilePasswords) : Option Text :=
  match profile.mAuthenticationType with
  | .pkcs12 | .userpassPkcs12 => profile.mPKCS12Password
  | .certificates | .userpassCertificates => profile.mKeyPassword
  | _ => none

/-- A question is a get that resets, and the profile's own password if it finds none. -/
theorem getPasswordPrivateKey_eq (profile : ProfilePasswords)
    (mInstance : Option PasswordCache) :
    getPasswordPrivateKey profile mInstance =
      ((getPassword .pkcs12orCert mInstance profile.mUuid true).1.or (ownKeyPassword profile),
        passwordCache.step mInstance (.getPassword .pkcs12orCert profile.mUuid true)) := by
  simp only [getPasswordPrivateKey, ownKeyPassword, passwordCache, getPassword]
  rcases getPKCS12orCertificatePassword mInstance profile.mUuid true with ⟨_ | pw, mInstance'⟩
  · cases profile.mAuthenticationType <;> rfl
  · rfl

theorem getPasswordAuth_eq (profile : ProfilePasswords) (mInstance : Option PasswordCache) :
    getPasswordAuth profile mInstance =
      ((getPassword .auth mInstance profile.mUuid true).1.or profile.mPassword,
        passwordCache.step mInstance (.getPassword .auth profile.mUuid true)) := by
  simp only [getPasswordAuth, passwordCache, getPassword]
  rcases getAuthPassword mInstance profile.mUuid true with ⟨_ | pw, mInstance'⟩ <;> rfl

/-- Without a password of its own in the cache a profile answers from its fields,
    whatever was set for other profiles. -/
theorem getPasswordAuth_of_not_set {profile : ProfilePasswords} {calls : List PasswordCall}
    (h : ∀ call ∈ calls, ∀ p, ¬ call.Sets .auth profile.mUuid (some p)) :
    (getPasswordAuth profile (passwordCache.run calls)).1 = profile.mPassword := by
  rw [getPasswordAuth_eq, getPassword_eq_none h, Option.none_or]

theorem getPasswordPrivateKey_of_not_set {profile : ProfilePasswords}
    {calls : List PasswordCall}
    (h : ∀ call ∈ calls, ∀ p, ¬ call.Sets .pkcs12orCert profile.mUuid (some p)) :
    (getPasswordPrivateKey profile (passwordCache.run calls)).1 = ownKeyPassword profile := by
  rw [getPasswordPrivateKey_eq, getPassword_eq_none h, Option.none_or]

end VpnProfile

end OpenVpnAndroid
