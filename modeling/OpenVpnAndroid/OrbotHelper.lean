/-
  OpenVpnAndroid/OrbotHelper.lean
  ===============================
  **Does Orbot's readiness reach all callbacks?**

  The receiver of Orbot's status goes through the callbacks and calls `onOrbotReady`,
  in which a callback removes itself from the set that is being gone through.  The
  iterator notices this when it is asked for the next callback: one callback is
  called, the others are not (`orbotReady_iff`).
-/
import OpenVpnAndroid.HashSet
import OpenVpnAndroid.JavaText
import OpenVpnAndroid.Machine

namespace OpenVpnAndroid

inductive OrbotException where
  | concurrentModification
  /-- `Receiver not registered` -/
  | illegalArgument
  | nullPointer
deriving DecidableEq, Repr

/-- A call of a callback, or of the context. -/
inductive OrbotCall (α : Type) where
  | onStatus (cb : α)
  | onNotYetInstalled (cb : α)
  | onOrbotReady (cb : α) (socksHost : Text) (socksPort : Int)
  | onDisabled (cb : α)
  | registerReceiver
  | unregisterReceiver
deriving DecidableEq, Repr

structure OrbotHelper (α : Type) where
  statusCallbacks : HashSet α
  /-- `mContext` is not null -/
  mContext : Bool
  /-- `orbotStatusReceiver` is registered with the context -/
  registered : Bool
  calls : List (OrbotCall α)

/-- The extras of a status that are read. -/
structure StatusExtras where
  status : Option Text
  socksHost : Option Text
  socksPort : Option Int
deriving DecidableEq, Repr

structure StatusIntent where
  action : Text
  extras : Option StatusExtras
deriving DecidableEq, Repr

namespace OrbotHelper

def ACTION_STATUS : Text := "org.torproject.android.intent.action.STATUS"
def STATUS_ON : Text := "ON"
def STATUS_STARTS_DISABLED : Text := "STARTS_DISABLED"
def SOCKS_PROXY_PORT_DEFAULT : Int := 9050

variable {α : Type}

/-- The fields as the class initialises them. -/
def init : OrbotHelper α := ⟨.empty, false, false, []⟩

def record (call : OrbotCall α) (h : OrbotHelper α) : OrbotHelper α :=
  { h with calls := h.calls ++ [call] }

/-- A method: it ends with an exception or not, and leaves the object in some state. -/
abbrev Method (α : Type) := EStateM OrbotException (OrbotHelper α)

def registerReceiver : Method α Unit :=
  modify fun h => record .registerReceiver { h with registered := true }

def unregisterReceiver : Method α Unit := do
  let h ← get
  if !h.mContext then throw .nullPointer
  if !h.registered then throw .illegalArgument
  set (record .unregisterReceiver { h with registered := false })

/-- `for (StatusCallback cb : statusCallbacks)` -/
def forEach (body : α → Method α Unit) : Method α Unit :=
  HashSet.forEach statusCallbacks .concurrentModification body

/-! ### The callback of `OpenVpnManagementThread` -/

section Callback

variable [DecidableEq α]

/-- `torReceiver` is what `checkTorReceier` answers. -/
def addStatusCallback (cb : α) (arrangement : Arrangement α) (torReceiver : Bool) :
    Method α Unit := do
  if (← get).statusCallbacks.size = 0 then
    registerReceiver
    modify fun h => { h with mContext := true }
  if !torReceiver then modify (record (.onNotYetInstalled cb))
  modify fun h => { h with statusCallbacks := h.statusCallbacks.add arrangement cb }

def removeStatusCallback (cb : α) : Method α Unit := do
  modify fun h => { h with statusCallbacks := h.statusCallbacks.remove cb }
  if (← get).statusCallbacks.size = 0 then unregisterReceiver

/-- The keys of the extras are read for a debug message. -/
def onStatus (intent : StatusIntent) (cb : α) : Method α Unit := do
  modify (record (.onStatus cb))
  if intent.extras.isNone then throw .nullPointer

/-- The proxy is sent to OpenVPN, and the callback removes itself. -/
def onOrbotReady (socksHost : Text) (socksPort : Int) (cb : α) : Method α Unit := do
  modify (record (.onOrbotReady cb socksHost socksPort))
  removeStatusCallback cb

def onDisabled (cb : α) : Method α Unit := modify (record (.onDisabled cb))

def socksPort (extras : StatusExtras) : Int := extras.socksPort.getD SOCKS_PROXY_PORT_DEFAULT

def socksHost (extras : StatusExtras) : Text :=
  match extras.socksHost with
  | none | some [] => "127.0.0.1"
  | some host => host

/-- `orbotStatusReceiver.onReceive` -/
def onReceive (intent : StatusIntent) : Method α Unit := do
  if intent.action = ACTION_STATUS then
    forEach (onStatus intent)
    let extras := intent.extras.getD ⟨none, none, none⟩
    if extras.status = some STATUS_ON then
      forEach (onOrbotReady (socksHost extras) (socksPort extras))
    else if extras.status = some STATUS_STARTS_DISABLED then forEach onDisabled

/-- A broadcast is delivered to a registered receiver. -/
def broadcast (intent : StatusIntent) : Method α Unit := do
  if (← get).registered then onReceive intent

end Callback

end OrbotHelper

/-! ### Runs -/

inductive OrbotEvent (α : Type) where
  | addStatusCallback (cb : α) (arrangement : Arrangement α) (torReceiver : Bool)
  /-- from the runnable that times out -/
  | removeStatusCallback (cb : α)
  | broadcast (intent : StatusIntent)

namespace OrbotHelper

variable {α : Type} [DecidableEq α]

def handle : OrbotEvent α → Method α Unit
  | .addStatusCallback cb arrangement torReceiver =>
      addStatusCallback cb arrangement torReceiver
  | .removeStatusCallback cb => removeStatusCallback cb
  | .broadcast intent => broadcast intent

end OrbotHelper

/-- The one instance and what is done with it. -/
def orbotHelper (α : Type) [DecidableEq α] : Machine (OrbotHelper α) (OrbotEvent α) :=
  ⟨.init, fun h e => HashSet.left (OrbotHelper.handle e h)⟩

namespace OrbotHelper

variable {α : Type} [DecidableEq α] {h : OrbotHelper α} {cb : α}

/-! ### The methods, step by step -/

omit [DecidableEq α] in
theorem unregisterReceiver_eq (h : OrbotHelper α) :
    unregisterReceiver h =
      if h.mContext = false then .error .nullPointer h
      else if h.registered = false then .error .illegalArgument h
      else .ok () (record .unregisterReceiver { h with registered := false }) := by
  rcases h with ⟨callbacks, _ | _, _ | _, calls⟩ <;> rfl

/-- The receiver is registered for the first callback. -/
theorem addStatusCallback_eq (cb : α) (arrangement : Arrangement α) (torReceiver : Bool)
    (h : OrbotHelper α) :
    addStatusCallback cb arrangement torReceiver h =
      let listening := if h.statusCallbacks.elements = [] then
          { record .registerReceiver { h with registered := true } with mContext := true }
        else h
      let told := if torReceiver then listening else record (.onNotYetInstalled cb) listening
      .ok () { told with statusCallbacks := told.statusCallbacks.add arrangement cb } := by
  rw [addStatusCallback]
  by_cases hempty : h.statusCallbacks.elements = []
  · have hsize : h.statusCallbacks.size = 0 := HashSet.size_eq_zero.mpr hempty
    cases torReceiver <;>
      simp only [bind, EStateM.bind, get, getThe, MonadStateOf.get, EStateM.get, hsize, hempty,
        if_true] <;> rfl
  · have hsize : h.statusCallbacks.size ≠ 0 := fun h0 => hempty (HashSet.size_eq_zero.mp h0)
    cases torReceiver <;>
      simp only [bind, EStateM.bind, get, getThe, MonadStateOf.get, EStateM.get, hsize, hempty,
        if_false] <;> rfl

theorem removeStatusCallback_eq (cb : α) (h : OrbotHelper α) :
    removeStatusCallback cb h =
      if (h.statusCallbacks.remove cb).elements = [] then
        unregisterReceiver { h with statusCallbacks := h.statusCallbacks.remove cb }
      else .ok () { h with statusCallbacks := h.statusCallbacks.remove cb } := by
  simp only [removeStatusCallback, bind, EStateM.bind, modify, modifyGet,
    MonadStateOf.modifyGet, EStateM.modifyGet, get, getThe, MonadStateOf.get, EStateM.get,
    HashSet.size_eq_zero]
  split_ifs <;> rfl

theorem onOrbotReady_eq (socksHost : Text) (socksPort : Int) (cb : α) (h : OrbotHelper α) :
    onOrbotReady socksHost socksPort cb h =
      removeStatusCallback cb (record (.onOrbotReady cb socksHost socksPort) h) := rfl

omit [DecidableEq α] in
theorem onStatus_eq (intent : StatusIntent) (cb : α) (h : OrbotHelper α) :
    onStatus intent cb h =
      if intent.extras = none then .error .nullPointer (record (.onStatus cb) h)
      else .ok () (record (.onStatus cb) h) := by
  rcases intent with ⟨action, _ | extras⟩ <;> rfl

/-! ### The receiver is registered while there are callbacks -/

def WellRegistered (h : OrbotHelper α) : Prop :=
  (h.registered = true ↔ h.statusCallbacks.elements ≠ []) ∧
    (h.registered = true → h.mContext = true)

theorem wellRegistered_removeStatusCallback (hh : h.WellRegistered) (cb : α) :
    (HashSet.left (removeStatusCallback cb h)).WellRegistered := by
  rw [removeStatusCallback_eq]
  split_ifs with hempty
  · rw [unregisterReceiver_eq]
    split_ifs with hcontext hregistered
    · have hnot : h.registered ≠ true := fun hr => by
        rw [hh.2 hr] at hcontext
        cases hcontext
      exact ⟨iff_of_false hnot fun hne => hne hempty, fun hr => absurd hr hnot⟩
    · have hnot : h.registered ≠ true := by simpa using hregistered
      exact ⟨iff_of_false hnot fun hne => hne hempty, fun hr => absurd hr hnot⟩
    · exact ⟨iff_of_false Bool.false_ne_true fun hne => hne hempty, fun hr => by cases hr⟩
  · have hbefore : h.statusCallbacks.elements ≠ [] := by
      intro hnil
      rw [HashSet.remove_elements, hnil] at hempty
      exact hempty rfl
    exact ⟨iff_of_true (hh.1.mpr hbefore) hempty, hh.2⟩

theorem wellRegistered_addStatusCallback (hh : h.WellRegistered) (cb : α)
    (arrangement : Arrangement α) (torReceiver : Bool) :
    (HashSet.left (addStatusCallback cb arrangement torReceiver h)).WellRegistered := by
  have hadd := HashSet.add_elements_ne_nil h.statusCallbacks arrangement cb
  rw [addStatusCallback_eq]
  split_ifs with hempty htor htor
  · exact ⟨iff_of_true rfl hadd, fun _ => rfl⟩
  · exact ⟨iff_of_true rfl hadd, fun _ => rfl⟩
  · exact ⟨iff_of_true (hh.1.mpr hempty) hadd, hh.2⟩
  · exact ⟨iff_of_true (hh.1.mpr hempty) hadd, hh.2⟩

/-- A broadcast keeps this, whether it ends with an exception or not. -/
theorem wellRegistered_broadcast (hh : h.WellRegistered) (intent : StatusIntent) :
    (HashSet.left (broadcast intent h)).WellRegistered := by
  have hloop : ∀ body : α → Method α Unit,
      (∀ cb h, h.WellRegistered → (HashSet.left (body cb h)).WellRegistered) →
        ∀ h, h.WellRegistered → (HashSet.left (forEach body h)).WellRegistered :=
    fun _ hbody _ hh => HashSet.forEach_invariant hbody hh
  have hstatus := hloop (onStatus intent) fun cb h hh => by
    rw [onStatus_eq]
    split_ifs <;> exact hh
  have hready := fun host port => hloop (onOrbotReady host port) fun cb h hh =>
    wellRegistered_removeStatusCallback (h := record (.onOrbotReady cb host port) h) hh cb
  have hdisabled := hloop onDisabled fun cb h hh => hh
  refine HashSet.left_bind_invariant hh fun current h hh => ?_
  by_cases hregistered : current.registered = true
  · rw [if_pos hregistered, onReceive]
    split_ifs with haction
    · refine HashSet.left_bind_invariant (hstatus h hh) fun _ h hh => ?_
      split_ifs
      · exact hready _ _ h hh
      · exact hdisabled h hh
      · exact hh
    · exact hh
  · rw [if_neg hregistered]
    exact hh

theorem wellRegistered_run (es : List (OrbotEvent α)) :
    ((orbotHelper α).run es).WellRegistered := by
  refine Machine.invariant (M := orbotHelper α) ?_ (fun h e hh => ?_) es
  · exact ⟨iff_of_false Bool.false_ne_true fun hne => hne rfl, fun hr => by cases hr⟩
  · cases e with
    | addStatusCallback cb arrangement torReceiver =>
        exact wellRegistered_addStatusCallback hh cb arrangement torReceiver
    | removeStatusCallback cb => exact wellRegistered_removeStatusCallback hh cb
    | broadcast intent => exact wellRegistered_broadcast hh intent

/-! ### The broadcast that Orbot is ready -/

/-- `ACTION_STATUS` with the status `ON`. -/
def StatusOn (intent : StatusIntent) : Prop :=
  intent.action = ACTION_STATUS ∧ ∃ extras ∈ intent.extras, extras.status = some STATUS_ON

/-- The callbacks whose `onOrbotReady` was called. -/
def readyCallbacks (calls : List (OrbotCall α)) : List α :=
  calls.filterMap fun
    | .onOrbotReady cb _ _ => some cb
    | _ => none

/-- The broadcast ends without an exception and calls `onOrbotReady` once on each of the
    callbacks; then none is left, and the receiver was unregistered once. -/
def ReachesAll (h : OrbotHelper α) (intent : StatusIntent) : Prop :=
  ∃ h' made, broadcast intent h = .ok () h' ∧ h'.calls = h.calls ++ made ∧
    (readyCallbacks made).Perm h.statusCallbacks.elements ∧
    h'.statusCallbacks.elements = [] ∧ h'.registered = false ∧
    made.count .unregisterReceiver = 1

omit [DecidableEq α] in
theorem foldl_record (call : α → OrbotCall α) (cbs : List α) (h : OrbotHelper α) :
    cbs.foldl (fun h cb => record (call cb) h) h =
      { h with calls := h.calls ++ cbs.map call } := by
  induction cbs generalizing h with
  | nil => simp
  | cons cb cbs ih =>
      rw [List.foldl_cons, ih]
      simp [record]

/-- What the first loop leaves: all callbacks are told the status. -/
def told (h : OrbotHelper α) : OrbotHelper α :=
  { h with calls := h.calls ++ h.statusCallbacks.elements.map .onStatus }

theorem broadcast_eq {intent : StatusIntent} {extras : StatusExtras}
    (haction : intent.action = ACTION_STATUS) (hextras : intent.extras = some extras)
    (hstatus : extras.status = some STATUS_ON) (hregistered : h.registered = true) :
    broadcast intent h =
      forEach (onOrbotReady (socksHost extras) (socksPort extras)) h.told := by
  have hloop : forEach (onStatus intent) h = .ok () h.told := by
    rw [forEach, HashSet.forEach_of_keeps (fun cb h => record (.onStatus cb) h), foldl_record]
    · rfl
    · intro cb h
      rw [onStatus_eq, hextras, if_neg (Option.some_ne_none extras)]
    · exact fun _ _ => rfl
  have hreceive : broadcast intent h = onReceive intent h := by
    change (if h.registered then onReceive intent else pure ()) h = onReceive intent h
    rw [if_pos hregistered]
  rw [hreceive, onReceive, if_pos haction]
  change EStateM.bind (forEach (onStatus intent)) _ h = _
  rw [EStateM.bind, hloop]
  dsimp only
  rw [hextras, Option.getD_some, if_pos hstatus]

theorem onOrbotReady_registered (host : Text) (port : Int) (cb : α)
    (hregistered : h.registered = true) (hcontext : h.mContext = true) :
    onOrbotReady host port cb h =
      if (h.statusCallbacks.remove cb).elements = [] then
        .ok () { h with
          statusCallbacks := h.statusCallbacks.remove cb
          registered := false
          calls := h.calls ++ [.onOrbotReady cb host port, .unregisterReceiver] }
      else
        .ok () { h with
          statusCallbacks := h.statusCallbacks.remove cb
          calls := h.calls ++ [.onOrbotReady cb host port] } := by
  rw [onOrbotReady_eq, removeStatusCallback_eq, unregisterReceiver_eq]
  simp [record, hregistered, hcontext]

section Ready

variable (host : Text) (port : Int) (hregistered : h.registered = true)
  (hcontext : h.mContext = true)
include hregistered hcontext

/-- With one callback the loop is over when the set changes. -/
theorem forEach_onOrbotReady_one (hcbs : h.statusCallbacks.elements = [cb]) :
    ∃ h', forEach (onOrbotReady host port) h = .ok () h' ∧
      h'.calls = h.calls ++ [.onOrbotReady cb host port, .unregisterReceiver] ∧
      h'.statusCallbacks.elements = [] ∧ h'.registered = false := by
  have hremoved : (h.statusCallbacks.remove cb).elements = [] := by
    rw [HashSet.remove_elements, hcbs, List.erase_cons_head]
  rw [forEach, HashSet.forEach_singleton hcbs, onOrbotReady_registered host port cb hregistered
    hcontext, if_pos hremoved]
  exact ⟨_, rfl, rfl, hremoved, rfl⟩

/-- With more the iterator is asked again. -/
theorem forEach_onOrbotReady_more {cb' : α} {cbs : List α}
    (hcbs : h.statusCallbacks.elements = cb :: cb' :: cbs) :
    ∃ h', forEach (onOrbotReady host port) h = .error .concurrentModification h' := by
  have hremoved : (h.statusCallbacks.remove cb).elements ≠ [] := by
    rw [HashSet.remove_elements, hcbs, List.erase_cons_head]
    exact List.cons_ne_nil cb' cbs
  have hcount : (h.statusCallbacks.remove cb).modCount ≠ h.statusCallbacks.modCount :=
    HashSet.remove_modCount_ne (by rw [hcbs]; exact List.mem_cons_self)
  have hfirst := onOrbotReady_registered host port cb hregistered hcontext
  rw [if_neg hremoved] at hfirst
  exact ⟨_, HashSet.forEach_modified hcbs hfirst hcount⟩

end Ready

theorem reachesAll_iff (hh : h.WellRegistered) {intent : StatusIntent} (hon : StatusOn intent)
    (hne : h.statusCallbacks.elements ≠ []) :
    h.ReachesAll intent ↔ h.statusCallbacks.size = 1 := by
  obtain ⟨haction, extras, hextras, hstatus⟩ := hon
  have hregistered : h.told.registered = true := hh.1.mpr hne
  have hcontext : h.told.mContext = true := hh.2 hregistered
  have hbroadcast := broadcast_eq (h := h) haction hextras hstatus hregistered
  obtain ⟨cb, cbs, hcbs⟩ := List.exists_cons_of_ne_nil hne
  cases cbs with
  | nil =>
      obtain ⟨h', hok, hcalls, hempty, hunregistered⟩ :=
        forEach_onOrbotReady_one (socksHost extras) (socksPort extras) hregistered hcontext hcbs
      have hsize : h.statusCallbacks.size = 1 := by rw [HashSet.size, hcbs]; rfl
      refine iff_of_true ⟨h', [.onStatus cb,
        .onOrbotReady cb (socksHost extras) (socksPort extras), .unregisterReceiver],
        hbroadcast.trans hok, ?_, ?_, hempty, hunregistered, ?_⟩ hsize
      · simp [hcalls, told, hcbs]
      · simp [readyCallbacks, hcbs]
      · simp
  | cons cb' cbs =>
      obtain ⟨h', herror⟩ :=
        forEach_onOrbotReady_more (socksHost extras) (socksPort extras) hregistered hcontext hcbs
      have hsize : h.statusCallbacks.size ≠ 1 := by rw [HashSet.size, hcbs]; simp
      refine iff_of_false ?_ hsize
      rintro ⟨h'', made, hok, -⟩
      rw [hbroadcast, herror] at hok
      cases hok

/-- Orbot's readiness reaches all callbacks exactly when there is one. -/
theorem orbotReady_iff (es : List (OrbotEvent α)) {intent : StatusIntent}
    (hon : StatusOn intent)
    (hne : ((orbotHelper α).run es).statusCallbacks.elements ≠ []) :
    ((orbotHelper α).run es).ReachesAll intent ↔
      ((orbotHelper α).run es).statusCallbacks.size = 1 :=
  reachesAll_iff (wellRegistered_run es) hon hne

theorem orbotReady_iff_one :
    let intent : StatusIntent := ⟨ACTION_STATUS, some ⟨some STATUS_ON, none, some 9050⟩⟩
    let h := (orbotHelper Nat).run [.addStatusCallback 1 ⟨id, .refl⟩ true]
    h.ReachesAll intent ↔ h.statusCallbacks.size = 1 :=
  orbotReady_iff [.addStatusCallback 1 ⟨id, .refl⟩ true] ⟨rfl, _, rfl, rfl⟩ (by decide)

/-- Two callbacks: the one that was added last is called, then the receiver crashes. -/
theorem orbotReady_two :
    let intent : StatusIntent := ⟨ACTION_STATUS, some ⟨some STATUS_ON, none, some 9050⟩⟩
    let h := (orbotHelper Nat).run
      [.addStatusCallback 1 ⟨id, .refl⟩ true, .addStatusCallback 2 ⟨id, .refl⟩ true]
    h.statusCallbacks.elements = [2, 1] ∧
      (∃ h', broadcast intent h = .error .concurrentModification h' ∧
        readyCallbacks h'.calls = [2] ∧ h'.statusCallbacks.elements = [1]) ∧
      ¬h.ReachesAll intent := by
  intro intent h
  have herror : ∃ h', broadcast intent h = .error .concurrentModification h' ∧
      readyCallbacks h'.calls = [2] ∧ h'.statusCallbacks.elements = [1] :=
    ⟨_, rfl, by decide, by decide⟩
  refine ⟨by decide, herror, ?_⟩
  obtain ⟨h', herror, -⟩ := herror
  rintro ⟨h'', made, hok, -⟩
  rw [herror] at hok
  cases hok

end OrbotHelper

end OpenVpnAndroid
