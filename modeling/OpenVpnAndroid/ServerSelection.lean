/-
  OpenVpnAndroid/ServerSelection.lean
  ===================================
  **`Hot`: the best server and the servers to choose from.**

  The stored list has two halves.  `isHaveVpnData` accepts a list by its first half;
  `getBestData` draws the best server from the open ones of the second half, and
  `getAllData` shows these.  Whether the second half is empty is asked before it is
  filtered, and `random` throws where nothing is left.  When it is empty from the
  beginning, the best server of an earlier list stays and becomes the current one.

  Gson is a parameter.  Of it the results use that a server that was written is read
  back (`Gson.ReadsBack`).
-/
import OpenVpnAndroid.JavaText

namespace OpenVpnAndroid

/-! ### Data -/

/-- A field that the JSON text does not have is `null`. -/
structure ServiceData where
  DCzDBHwKl : Option Text
  Jbvs : Option Text := none
  RLhLoQLm : Option Text
  SIt : Option Text := none
  WvubbYmB : Option (List Text) := none
  eOEwSU : Int := 0
  mYeZDkXHm : Option Text
  oquHb : Option Text := none
  oyWKlGuFcm : Option Text := none
  wIqcDNWy : Option Text := none
deriving DecidableEq, Repr

structure TypeData where
  MINgqPeL : Option (List ServiceData)
  Tauosj : Option (List ServiceData)
deriving DecidableEq, Repr

structure VpnServicesBean where
  data : Option TypeData
deriving DecidableEq, Repr

/-- The keys in `XproVPN_pref` that the selection uses. -/
inductive KeyAppFun where
  | o_service_data
  | l_service_best_data
  | l_service_now_data
  | tba_vpn_ip_type
  | tba_vpn_name_type
deriving DecidableEq, Repr

abbrev SharedPreferences := KeyAppFun → Option Text

inductive HotException where
  | nullPointer
  | noSuchElement
  | jsonSyntax
deriving DecidableEq, Repr

/-- A method of `Hot`; what it has stored before an exception stays. -/
abbrev Hot := ExceptT HotException (StateM SharedPreferences)

structure Gson where
  toJson : ServiceData → Text
  /-- `fromJson(_, ServiceData::class.java)` -/
  fromJson : Text → Except HotException (Option ServiceData)
  /-- `fromJson(_, VpnServicesBean::class.java)` -/
  fromJsonServices : Text → Except HotException (Option VpnServicesBean)

namespace Hot

/-- What a method returns or throws, and the preferences after it. -/
def outcome {α : Type} (code : Hot α) (p : SharedPreferences) :
    Except HotException α × SharedPreferences :=
  code.run.run p

def getStringpreference (key : KeyAppFun) : Hot Text := return ((← get) key).getD []

/-- `putString` of `null` removes the key. -/
def setStringpreference (key : KeyAppFun) (value : Option Text) : Hot Unit :=
  modify fun p => Function.update p key value

/-- `isBlank` -/
def isBlank (s : Text) : Bool :=
  s.all fun c => isWhitespace c || c.toNat == 0xa0 || c.toNat == 0x2007 || c.toNat == 0x202f

/-- `random` -/
def random {α : Type} (choice : Nat) (l : List α) : Hot α :=
  match l[choice % l.length]? with
  | some a => return a
  | none => throw .noSuchElement

def isOpen (serviceData : ServiceData) : Bool := serviceData.mYeZDkXHm = some "open"

variable (gson : Gson)

def getBestData (choice : Nat) : Hot Unit := do
  let serviceString ← getStringpreference .o_service_data
  let vpnAllListBean ← gson.fromJsonServices serviceString
  match vpnAllListBean.bind VpnServicesBean.data with
  | none => return
  | some data =>
      match data.Tauosj with
      | none => throw .nullPointer
      | some Tauosj =>
          if Tauosj.isEmpty then return
          let filteredServices := Tauosj.filter isOpen
          let vpnBean ← random choice filteredServices
          setStringpreference .l_service_best_data (some (gson.toJson vpnBean))

def initVPNSet (choice : Nat) (vpnBean : Option ServiceData) : Hot Unit := do
  getBestData gson choice
  let serviceString ← getStringpreference .l_service_best_data
  let vpnBestBean ← gson.fromJson serviceString
  match vpnBean.or vpnBestBean with
  | none => return
  | some vpnBestBean =>
      setStringpreference .l_service_now_data (some (gson.toJson vpnBestBean))
      setStringpreference .tba_vpn_ip_type vpnBestBean.DCzDBHwKl
      setStringpreference .tba_vpn_name_type vpnBestBean.RLhLoQLm

/-- The body of the `try` block of `getAllData`. -/
def allData (choice : Nat) : Hot (Option (List (Option ServiceData))) := do
  let serviceString ← getStringpreference .o_service_data
  let some vpnAllListBean ← gson.fromJsonServices serviceString | throw .nullPointer
  let some data := vpnAllListBean.data | throw .nullPointer
  let some MINgqPeL := data.MINgqPeL | throw .nullPointer
  if MINgqPeL.isEmpty then return none
  let mut bestData ← getStringpreference .l_service_best_data
  if isBlank bestData then
    getBestData gson choice
    bestData ← getStringpreference .l_service_best_data
  let vpnBeatBean ← gson.fromJson bestData
  let some Tauosj := data.Tauosj | throw .nullPointer
  let filteredServices := Tauosj.filter isOpen
  return some (vpnBeatBean :: filteredServices.map some)

def getAllData (choice : Nat) : Hot (Option (List (Option ServiceData))) :=
  tryCatch (allData gson choice) fun _ => return none

/-- Its answer; what it starts when it refuses is left out. -/
def isHaveVpnData : Hot Bool := do
  let serviceString ← getStringpreference .o_service_data
  let vpnAllListBean :=
    match gson.fromJsonServices serviceString with
    | .ok vpnAllListBean => vpnAllListBean
    | .error _ => none
  match vpnAllListBean.bind VpnServicesBean.data with
  | none => return false
  | some data =>
      match data.MINgqPeL with
      | none => throw .nullPointer
      | some MINgqPeL => return !MINgqPeL.isEmpty

/-! ### Running the methods -/

section Outcome

variable {α β : Type} {p : SharedPreferences}

@[simp] theorem outcome_pure (a : α) : (pure a : Hot α).outcome p = (.ok a, p) := rfl

@[simp] theorem outcome_throw (e : HotException) : (throw e : Hot α).outcome p = (.error e, p) :=
  rfl

@[simp] theorem outcome_bind (x : Hot α) (f : α → Hot β) :
    (x >>= f).outcome p =
      match x.outcome p with
      | (.ok a, p') => (f a).outcome p'
      | (.error e, p') => (.error e, p') := by
  change StateT.run (ExceptT.run (x >>= f)) p = _
  rw [ExceptT.run_bind, StateT.run_bind, outcome]
  rcases StateT.run (ExceptT.run x) p with ⟨a | e, p'⟩ <;> rfl

@[simp] theorem outcome_tryCatch (x : Hot α) (h : HotException → Hot α) :
    (tryCatch x h).outcome p =
      match x.outcome p with
      | (.ok a, p') => (.ok a, p')
      | (.error e, p') => (h e).outcome p' := by
  change StateT.run (ExceptT.run (tryCatch x h)) p = _
  rw [ExceptT.run_tryCatch, StateT.run_bind, outcome]
  rcases StateT.run (ExceptT.run x) p with ⟨a | e, p'⟩ <;> rfl

@[simp] theorem outcome_liftM (x : Except HotException α) :
    (liftM x : Hot α).outcome p = (x, p) := rfl

@[simp] theorem outcome_getStringpreference (key : KeyAppFun) :
    (getStringpreference key).outcome p = (.ok ((p key).getD []), p) := rfl

@[simp] theorem outcome_setStringpreference (key : KeyAppFun) (value : Option Text) :
    (setStringpreference key value).outcome p = (.ok (), Function.update p key value) := rfl

end Outcome

/-- The preferences that `initVPNSet` writes for a server. -/
def setCurrent (best : ServiceData) (p : SharedPreferences) : SharedPreferences :=
  Function.update (Function.update (Function.update p .l_service_now_data
    (some (gson.toJson best))) .tba_vpn_ip_type best.DCzDBHwKl) .tba_vpn_name_type best.RLhLoQLm

/-! ### The open servers -/

section Servers

variable (p : SharedPreferences)

/-- The two halves of the stored list. -/
def services : Option TypeData :=
  match gson.fromJsonServices ((p .o_service_data).getD []) with
  | .ok vpnAllListBean => vpnAllListBean.bind VpnServicesBean.data
  | .error _ => none

/-- The servers of the second half that are open. -/
def openServers : List ServiceData :=
  (((services gson p).bind TypeData.Tauosj).getD []).filter isOpen

end Servers

variable {gson} {p : SharedPreferences} {data : TypeData} {choice : Nat}

theorem fromJsonServices_of_services (h : services gson p = some data) :
    ∃ vpnAllListBean, gson.fromJsonServices ((p .o_service_data).getD []) =
      .ok (some vpnAllListBean) ∧ vpnAllListBean.data = some data := by
  rw [services] at h
  split at h
  · rename_i bean hbean
    obtain ⟨vpnAllListBean, rfl, hdata⟩ := Option.bind_eq_some_iff.mp h
    exact ⟨vpnAllListBean, hbean, hdata⟩
  · cases h

theorem services_of_isHaveVpnData (h : ((isHaveVpnData gson).outcome p).1 = .ok true) :
    ∃ data MINgqPeL, services gson p = some data ∧ data.MINgqPeL = some MINgqPeL ∧
      MINgqPeL.isEmpty = false := by
  simp only [isHaveVpnData, outcome_bind, outcome_getStringpreference] at h
  rw [services]
  cases hbean : gson.fromJsonServices ((p .o_service_data).getD []) with
  | error e => simp [hbean] at h
  | ok bean =>
    simp only [hbean] at h
    cases hdata : bean.bind VpnServicesBean.data with
    | none => simp [hdata] at h
    | some data =>
      simp only [hdata] at h
      cases hhalf : data.MINgqPeL with
      | none => simp [hhalf] at h
      | some MINgqPeL => exact ⟨data, MINgqPeL, hdata, hhalf, by simpa [hhalf] using h⟩

theorem random_mem {α : Type} {l : List α} (hl : l ≠ []) (choice : Nat) :
    ∃ a ∈ l, ∀ p, (random choice l).outcome p = (.ok a, p) := by
  have hlt : choice % l.length < l.length := Nat.mod_lt _ (List.length_pos_of_ne_nil hl)
  refine ⟨l[choice % l.length], List.getElem_mem hlt, fun p => ?_⟩
  rw [random, List.getElem?_eq_getElem hlt]
  rfl

/-- `getBestData` with the second half of the stored list. -/
theorem outcome_getBestData (hdata : services gson p = some data) :
    (getBestData gson choice).outcome p =
      match data.Tauosj with
      | none => (.error .nullPointer, p)
      | some Tauosj =>
          if Tauosj.isEmpty then (.ok (), p)
          else
            match (random choice (Tauosj.filter isOpen)).outcome p with
            | (.ok vpnBean, p) =>
                (.ok (), Function.update p .l_service_best_data (some (gson.toJson vpnBean)))
            | (.error e, p) => (.error e, p) := by
  obtain ⟨bean, hbean, hbeandata⟩ := fromJsonServices_of_services hdata
  simp only [getBestData, outcome_bind, outcome_getStringpreference, outcome_liftM, hbean,
    Option.bind_some, hbeandata]
  cases data.Tauosj with
  | none => rfl
  | some Tauosj =>
    dsimp only
    split
    · rfl
    · simp only [outcome_bind, outcome_setStringpreference]
      rcases (random choice (Tauosj.filter isOpen)).outcome p with ⟨vpnBean | e, p'⟩ <;> rfl

theorem outcome_initVPNSet (p : SharedPreferences) :
    (initVPNSet gson choice none).outcome p =
      match (getBestData gson choice).outcome p with
      | (.error e, p) => (.error e, p)
      | (.ok _, p) =>
          match gson.fromJson ((p .l_service_best_data).getD []) with
          | .error e => (.error e, p)
          | .ok none => (.ok (), p)
          | .ok (some best) => (.ok (), setCurrent gson best p) := by
  rw [initVPNSet, outcome_bind]
  rcases (getBestData gson choice).outcome p with ⟨_ | e, p'⟩
  · rfl
  · simp only [outcome_bind, outcome_getStringpreference, outcome_liftM, Option.none_or]
    rcases gson.fromJson ((p' .l_service_best_data).getD []) with e | _ | best
    · rfl
    · rfl
    · simp only [outcome_bind, outcome_setStringpreference]
      rfl

/-! ### What a selection comes to -/

/-- The server is stored as the best one and as the current one. -/
structure Stores (gson : Gson) (server : ServiceData) (p : SharedPreferences) : Prop where
  best : p .l_service_best_data = some (gson.toJson server)
  now : p .l_service_now_data = some (gson.toJson server)
  address : p .tba_vpn_ip_type = server.DCzDBHwKl
  name : p .tba_vpn_name_type = server.RLhLoQLm

/-- `initVPNSet` returns, with an open server as the best and the current one, which
    `getAllData` then has before all open servers; without an open server nothing changes. -/
def Selects (gson : Gson) (choice choice' : Nat) (p : SharedPreferences) : Prop :=
  ∃ p', (initVPNSet gson choice none).outcome p = (.ok (), p') ∧
    ((∃ best ∈ openServers gson p, Stores gson best p' ∧
        ((getAllData gson choice').outcome p').1 =
          .ok (some ((best :: openServers gson p).map some))) ∨
      openServers gson p = [] ∧ p' = p)

/-- There is an open server; or the half is empty, and the stored best server is none or
    the current one. -/
def Selectable (gson : Gson) (p : SharedPreferences) : Prop :=
  openServers gson p ≠ [] ∨
    (services gson p).bind TypeData.Tauosj = some [] ∧
      (gson.fromJson ((p .l_service_best_data).getD []) = .ok none ∨
        ∃ best, gson.fromJson ((p .l_service_best_data).getD []) = .ok (some best) ∧
          setCurrent gson best p = p)

/-- A server that is written is read back, and its text is not blank. -/
structure ReadsBack (gson : Gson) (server : ServiceData) : Prop where
  fromJson_toJson : gson.fromJson (gson.toJson server) = .ok (some server)
  not_blank : isBlank (gson.toJson server) = false

theorem stores_setCurrent (server : ServiceData) (p : SharedPreferences) :
    Stores gson server (setCurrent gson server
      (Function.update p .l_service_best_data (some (gson.toJson server)))) := by
  constructor <;> simp [setCurrent]

/-- `getAllData` where a server is stored that is read back. -/
theorem outcome_getAllData {server : ServiceData} {MINgqPeL Tauosj : List ServiceData}
    (hdata : services gson p = some data) (hfirst : data.MINgqPeL = some MINgqPeL)
    (hne : MINgqPeL.isEmpty = false) (hsecond : data.Tauosj = some Tauosj)
    (hstores : Stores gson server p) (hreads : ReadsBack gson server) :
    (getAllData gson choice).outcome p =
      (.ok (some ((server :: Tauosj.filter isOpen).map some)), p) := by
  obtain ⟨bean, hbean, hbeandata⟩ := fromJsonServices_of_services hdata
  have hbest : (p .l_service_best_data).getD [] = gson.toJson server := by rw [hstores.best]; rfl
  have hall : (allData gson choice).outcome p =
      (.ok (some ((server :: Tauosj.filter isOpen).map some)), p) := by
    simp only [allData, outcome_bind, outcome_getStringpreference, outcome_liftM, hbean, hbeandata,
      hfirst, hne, hbest, hreads.not_blank, hreads.fromJson_toJson, hsecond, Bool.false_eq_true,
      if_false, outcome_pure, List.map_cons]
  rw [getAllData, outcome_tryCatch, hall]

/-! ### The three cases of the second half -/

theorem openServers_eq (hdata : services gson p = some data) :
    openServers gson p = (data.Tauosj.getD []).filter isOpen := by
  rw [openServers, hdata, Option.bind_some]

theorem selects_of_open {choice' : Nat} {MINgqPeL : List ServiceData}
    (hdata : services gson p = some data) (hfirst : data.MINgqPeL = some MINgqPeL)
    (hne : MINgqPeL.isEmpty = false) (hopen : openServers gson p ≠ [])
    (hreads : ∀ server ∈ openServers gson p, ReadsBack gson server) :
    Selects gson choice choice' p := by
  have hservers := openServers_eq hdata
  cases hsecond : data.Tauosj with
  | none => simp [hservers, hsecond] at hopen
  | some Tauosj =>
    rw [hsecond, Option.getD_some] at hservers
    have hfull : Tauosj.isEmpty = false := by
      cases Tauosj with
      | nil => exact absurd hservers hopen
      | cons => rfl
    obtain ⟨best, hmem, hrandom⟩ := random_mem hopen choice
    obtain hback := hreads best hmem
    have hget : (getBestData gson choice).outcome p =
        (.ok (), Function.update p .l_service_best_data (some (gson.toJson best))) := by
      rw [outcome_getBestData hdata, hsecond]
      simp only [hfull, Bool.false_eq_true, if_false, ← hservers, hrandom]
    have hstores := @stores_setCurrent gson best p
    refine ⟨_, ?_, .inl ⟨best, hmem, hstores, ?_⟩⟩
    · rw [outcome_initVPNSet, hget]
      simp only [Function.update_self, Option.getD_some, hback.fromJson_toJson]
    · have hdata' : services gson (setCurrent gson best
          (Function.update p .l_service_best_data (some (gson.toJson best)))) = some data := by
        rw [← hdata]
        simp [services, setCurrent]
      rw [outcome_getAllData hdata' hfirst hne hsecond hstores hback, hservers]

/-- A half that is missing, or without an open server. -/
theorem not_selects_of_throws {choice' : Nat} {e : HotException}
    (h : (getBestData gson choice).outcome p = (.error e, p)) :
    ¬Selects gson choice choice' p := by
  rintro ⟨p', hinit, -⟩
  rw [outcome_initVPNSet, h] at hinit
  cases hinit

/-- An empty half: the stored best server decides. -/
theorem selects_of_empty {choice' : Nat} (hdata : services gson p = some data)
    (hsecond : data.Tauosj = some []) :
    Selects gson choice choice' p ↔
      gson.fromJson ((p .l_service_best_data).getD []) = .ok none ∨
        ∃ best, gson.fromJson ((p .l_service_best_data).getD []) = .ok (some best) ∧
          setCurrent gson best p = p := by
  have hservers : openServers gson p = [] := by rw [openServers_eq hdata, hsecond]; rfl
  have hget : (getBestData gson choice).outcome p = (.ok (), p) := by
    rw [outcome_getBestData hdata, hsecond]
    rfl
  have hiff : Selects gson choice choice' p ↔
      (initVPNSet gson choice none).outcome p = (.ok (), p) := by
    constructor
    · rintro ⟨p', hinit, ⟨best, hmem, -⟩ | ⟨-, rfl⟩⟩
      · simp [hservers] at hmem
      · exact hinit
    · exact fun hinit => ⟨p, hinit, .inr ⟨hservers, rfl⟩⟩
  rw [hiff, outcome_initVPNSet, hget]
  rcases hread : gson.fromJson ((p .l_service_best_data).getD []) with e | _ | best
  · simp [hread]
  · simp [hread]
  · simp [hread]

/-- **A selection is right exactly when the second half has an open server**, or is empty
    while the stored best server is none or the current one. -/
theorem selects_iff (gson : Gson) (choice choice' : Nat) (p : SharedPreferences)
    (haccepts : ((isHaveVpnData gson).outcome p).1 = .ok true)
    (hreads : ∀ server ∈ openServers gson p, ReadsBack gson server) :
    Selects gson choice choice' p ↔ Selectable gson p := by
  obtain ⟨data, MINgqPeL, hdata, hfirst, hne⟩ := services_of_isHaveVpnData haccepts
  by_cases hopen : openServers gson p = []
  · have hservers := openServers_eq hdata
    rw [Selectable, hdata, Option.bind_some]
    cases hsecond : data.Tauosj with
    | none =>
      have hthrows : (getBestData gson choice).outcome p = (.error .nullPointer, p) := by
        rw [outcome_getBestData hdata, hsecond]
      exact iff_of_false (not_selects_of_throws hthrows) (by simp [hopen])
    | some Tauosj =>
      cases Tauosj with
      | nil => rw [selects_of_empty hdata hsecond]; simp [hopen]
      | cons server Tauosj =>
        have hnone : (server :: Tauosj).filter isOpen = [] := by
          rw [hsecond, hopen] at hservers
          exact hservers.symm
        have hthrows : (getBestData gson choice).outcome p = (.error .noSuchElement, p) := by
          rw [outcome_getBestData hdata, hsecond]
          simp [hnone, random]
        exact iff_of_false (not_selects_of_throws hthrows) (by simp [hopen])
  · exact iff_of_true (selects_of_open hdata hfirst hne hopen hreads) (.inl hopen)

/-! ### Two stored lists -/

def openServer : ServiceData where
  DCzDBHwKl := some "10.0.0.1"
  RLhLoQLm := some "a"
  mYeZDkXHm := some "open"

def closedServer : ServiceData := { openServer with mYeZDkXHm := some "close" }

/-- The texts that Gson writes for the two servers. -/
def serverJson (mYeZDkXHm : Text) : Text :=
  ("\x7b\"DCzDBHwKl\":\"10.0.0.1\",\"RLhLoQLm\":\"a\",\"eOEwSU\":0,\"mYeZDkXHm\":\"" : Text)
    ++ mYeZDkXHm ++ ("\"\x7d" : Text)

/-- A list with an open server in the first half and one server in the second. -/
def servicesJson (server : Text) : Text :=
  ("\x7b\"data\":\x7b\"MINgqPeL\":[" : Text) ++ serverJson "open" ++ ("],\"Tauosj\":[" : Text)
    ++ server ++ ("]\x7d\x7d" : Text)

/-- Gson on these texts. -/
def gsonOfTwo : Gson where
  toJson server := serverJson (server.mYeZDkXHm.getD [])
  fromJson json :=
    if json = serverJson "open" then .ok (some openServer)
    else if json = serverJson "close" then .ok (some closedServer)
    else if json = [] then .ok none
    else .error .jsonSyntax
  fromJsonServices json :=
    if json = servicesJson (serverJson "open") then
      .ok (some ⟨some ⟨some [openServer], some [openServer]⟩⟩)
    else if json = servicesJson (serverJson "close") then
      .ok (some ⟨some ⟨some [openServer], some [closedServer]⟩⟩)
    else if json = [] then .ok none
    else .error .jsonSyntax

/-- A new installation with a stored list. -/
def withServices (json : Text) : SharedPreferences :=
  Function.update (fun _ => none) .o_service_data (some json)

def openList : SharedPreferences := withServices (servicesJson (serverJson "open"))

def closedList : SharedPreferences := withServices (servicesJson (serverJson "close"))

theorem openServers_openList : openServers gsonOfTwo openList = [openServer] := by decide +kernel

theorem selects_openServer : Selects gsonOfTwo 0 0 openList := by
  refine (selects_iff gsonOfTwo 0 0 openList (by decide +kernel) fun server hserver => ?_).mpr
    (.inl ?_)
  · rw [openServers_openList, List.mem_singleton] at hserver
    subst hserver
    exact ⟨by decide +kernel, by decide +kernel⟩
  · rw [openServers_openList]
    exact List.cons_ne_nil _ _

/-- The only server of the second half is closed. -/
theorem not_selects :
    ¬ ∀ (gson : Gson) (choice choice' : Nat) (p : SharedPreferences),
        ((isHaveVpnData gson).outcome p).1 = .ok true →
        (∀ server ∈ openServers gson p, ReadsBack gson server) → Selects gson choice choice' p := by
  intro h
  have hopen : openServers gsonOfTwo closedList = [] := by decide +kernel
  have hthrows : ((initVPNSet gsonOfTwo 0 none).outcome closedList).1 =
      .error .noSuchElement := by decide +kernel
  obtain ⟨p', hinit, -⟩ := h gsonOfTwo 0 0 closedList (by decide +kernel) fun server hserver => by
    rw [hopen] at hserver
    exact nomatch hserver
  rw [hinit] at hthrows
  cases hthrows

end Hot

end OpenVpnAndroid
