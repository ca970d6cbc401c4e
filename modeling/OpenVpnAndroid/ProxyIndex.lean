/-
  OpenVpnAndroid/ProxyIndex.lean
  ==============================
  **`>PROXY:k` and the connection it is about.**

  OpenVPN numbers the entries of the list that it has built from the generated
  configuration and perhaps shuffled; `processProxyCMD` takes the number as an
  index into `mConnections`.  A `Connection` object is identified by its index
  in `mConnections`.

  The numbers mean the same to both exactly when no disabled connection stands
  before an enabled one and the shuffle has left the list as it was, or when
  there is only one connection.
-/
import OpenVpnAndroid.VpnProfile

namespace OpenVpnAndroid

/-! ### The connection list of OpenVPN -/

namespace VpnProfile

variable (p : VpnProfile)

def enabledAt (i : Nat) : Bool := p.mConnections[i]?.any Connection.mEnabled

/-- The connections whose blocks `getConfigFile` writes, in order: a single one
    whatever its `mEnabled` says, otherwise the enabled ones. -/
def emitted : List Nat :=
  if p.mConnections.length = 1 then [0]
  else (List.range p.mConnections.length).filter p.enabledAt

end VpnProfile

/-- The exchange of two entries of `l->array`. -/
def swapAt {α : Type*} (l : List α) (i j : Nat) : List α :=
  match l[i]?, l[j]? with
  | some a, some b => (l.set i b).set j a
  | _, _ => l

/-- `init_connection_list`; `get_random i` is the number drawn for entry `i`. -/
def init_connection_list {α : Type*} (remote_random : Bool) (get_random : Nat → Nat)
    (l : List α) : List α :=
  if remote_random then
    (List.range l.length).foldl (fun array i => swapAt array i (get_random i % l.length)) l
  else l

/-- The entries of OpenVPN's list, each as the connection it was emitted from. -/
def VpnProfile.connection_list (p : VpnProfile) (get_random : Nat → Nat) : List Nat :=
  init_connection_list p.writesRemoteRandom get_random p.emitted

/-! ### The answer of the management thread -/

/-- `>PROXY:k,proto,host`, cut at its commas; OpenVPN counts from 1. -/
structure ProxyQuery where
  number : Nat
  proto : Text
  host : Text
deriving DecidableEq, Repr

inductive ProxyAnswer where
  | managmentCommand (cmd : Text)
  /-- the answer follows when Orbot runs -/
  | sendOrbotStart
deriving DecidableEq, Repr

def sendProxyCMD (proxyType : ProxyType) (proxyname proxyport : Option Text) (usePwAuth : Bool) :
    Text :=
  match proxyname with
  | none => "proxy NONE\n"
  | some proxyname =>
      if proxyType ≠ .none then
        ("proxy " : Text) ++ (if proxyType = .http then ("HTTP" : Text) else ("SOCKS" : Text))
          ++ (" " : Text) ++ proxyname ++ (" " : Text) ++ orNull proxyport
          ++ (if usePwAuth then (" auto" : Text) else []) ++ ("\n" : Text)
      else "proxy NONE\n"

/-- The proxy settings that `processProxyCMD` works with. -/
structure ProxySettings where
  proxyType : ProxyType
  proxyname : Option Text
  proxyport : Option Text
  proxyUseAuth : Bool
deriving DecidableEq, Repr

def Connection.proxySettings (c : Connection) : ProxySettings :=
  ⟨c.mProxyType, some c.mProxyName, some c.mProxyPort, c.mUseProxyAuth⟩

/-- `processProxyCMD` after the connection has been looked up; `detectProxy` is
    `ProxyDetection.detectProxy(mProfile)`, the address of a system proxy. -/
def answerProxy (detectProxy : Option (Text × Int)) (proto : Text) (s : ProxySettings) :
    ProxyAnswer :=
  let s : ProxySettings :=
    match s.proxyType, detectProxy with
    | .none, some (name, port) => ⟨.http, some name, some (decimal port), false⟩
    | _, _ => s
  let proxyname :=
    if s.proxyType = .http ∧ proto = ("UDP" : Text) then none else s.proxyname
  if s.proxyType = .orbot then .sendOrbotStart
  else .managmentCommand (sendProxyCMD s.proxyType proxyname s.proxyport s.proxyUseAuth)

/-- `processProxyCMD`: the new `mCurrentProxyConnection` and the answer. -/
def processProxyCMD (detectProxy : VpnProfile → Option (Text × Int)) (mProfile : VpnProfile)
    (mCurrentProxyConnection : Option Nat) (query : ProxyQuery) : Option Nat × ProxyAnswer :=
  let connectionEntryNumber := query.number - 1
  match mProfile.mConnections[connectionEntryNumber]? with
  | some connection =>
      (some connectionEntryNumber,
        answerProxy (detectProxy mProfile) query.proto connection.proxySettings)
  | none =>
      (mCurrentProxyConnection,
        answerProxy (detectProxy mProfile) query.proto ⟨.none, none, none, false⟩)

/-- The user name, if there is one, and the password on the management socket. -/
def Connection.passwordLines (c : Connection) : Option (List Text) :=
  c.mProxyAuthPassword.map fun pw =>
    (match c.mProxyAuthUser with
      | none => []
      | some username =>
          [("username 'HTTP Proxy' " : Text) ++ VpnProfile.openVpnEscape username ++ ("\n" : Text)])
      ++ [("password 'HTTP Proxy' " : Text) ++ VpnProfile.openVpnEscape pw ++ ("\n" : Text)]

/-- `processPWCommand` for `HTTP Proxy`; with `none` the user is asked. -/
def processPWCommand (mProfile : VpnProfile) (mCurrentProxyConnection : Option Nat) :
    Option (List Text) :=
  (mCurrentProxyConnection.bind (mProfile.mConnections[·]?)).bind Connection.passwordLines

/-! ### Lists of indices -/

theorem swapAt_perm {α : Type*} (l : List α) (i j : Nat) : (swapAt l i j).Perm l := by
  rw [swapAt]
  split
  · next a b hi hj =>
      obtain ⟨hilt, rfl⟩ := List.getElem?_eq_some_iff.mp hi
      obtain ⟨hjlt, rfl⟩ := List.getElem?_eq_some_iff.mp hj
      exact List.set_set_perm hilt hjlt
  · exact List.Perm.refl l

/-- OpenVPN's list is the emitted one in some order. -/
theorem init_connection_list_perm {α : Type*} (remote_random : Bool) (get_random : Nat → Nat)
    (l : List α) : (init_connection_list remote_random get_random l).Perm l := by
  have hfold : ∀ (is : List Nat) (array : List α),
      (is.foldl (fun array i => swapAt array i (get_random i % l.length)) array).Perm array := by
    intro is
    induction is with
    | nil => intro array; exact List.Perm.refl array
    | cons i is ih =>
      intro array
      exact (ih _).trans (swapAt_perm array i _)
  rw [init_connection_list]
  split_ifs
  · exact hfold _ l
  · exact List.Perm.refl l

/-- A list that has `k` at each position `k` is a range. -/
theorem eq_range_iff {l : List Nat} :
    l = List.range l.length ↔ ∀ k j : Nat, l[k]? = some j → j = k := by
  constructor
  · intro h k j hk
    rw [h] at hk
    obtain ⟨hlt, rfl⟩ := List.getElem?_eq_some_iff.mp hk
    simp
  · intro h
    apply List.ext_getElem (by simp)
    intro k hk _
    rw [List.getElem_range]
    exact h k _ (List.getElem?_eq_getElem hk)

/-- The indices below `n` with `P` are a range exactly when no index without
    `P` stands before one with it. -/
theorem filter_range_eq_range_iff {n : Nat} {P : Nat → Bool} :
    (List.range n).filter P = List.range ((List.range n).filter P).length ↔
      ∀ i j, i < j → j < n → P j = true → P i = true := by
  constructor
  · intro h i j hij hj hPj
    have hmem : j ∈ (List.range n).filter P := List.mem_filter.mpr ⟨List.mem_range.mpr hj, hPj⟩
    rw [h, List.mem_range] at hmem
    have himem : i ∈ (List.range n).filter P := by
      rw [h, List.mem_range]
      omega
    exact (List.mem_filter.mp himem).2
  · intro hP
    induction n with
    | zero => rfl
    | succ n ih =>
      have ih := ih fun i j hij hj => hP i j hij (by omega)
      rw [List.range_succ, List.filter_append]
      rcases hn : P n with _ | _
      · simpa [hn] using ih
      · -- every index before `n` has `P`, so nothing is left out
        have hall : (List.range n).filter P = List.range n := by
          rw [List.filter_eq_self]
          intro i hi
          exact hP i n (List.mem_range.mp hi) (by omega) hn
        simp [hn, hall, List.range_succ]

/-- A permutation of an increasing list that is a range is that list. -/
theorem perm_range_eq {l m : List Nat} (hperm : l.Perm m) (hm : m.Pairwise (· < ·))
    (hl : l = List.range l.length) : m = List.range m.length ∧ l = m := by
  have hsorted : l.Pairwise (· < ·) := by
    rw [hl]
    exact List.pairwise_lt_range
  have heq : l = m := hperm.eq_of_pairwise (fun a b _ _ hab hba => by omega) hsorted hm
  exact ⟨heq ▸ hl, heq⟩

/-! ### The numbers agree -/

namespace VpnProfile

variable (p : VpnProfile)

/-- No disabled connection stands before an enabled one. -/
def DisabledLast : Prop :=
  ∀ i j, i < j → p.enabledAt j = true → p.enabledAt i = true

theorem emitted_pairwise : p.emitted.Pairwise (· < ·) := by
  rw [emitted]
  split_ifs
  · exact List.pairwise_singleton _ _
  · exact List.pairwise_lt_range.filter _

/-- Walking over the list or over the indices of its chosen elements. -/
theorem flatMap_ite_eq {α β : Type*} (l : List α) (chosen : α → Bool) (f : α → List β) :
    (l.flatMap fun a => if chosen a then f a else []) =
      ((List.range l.length).filter fun i => l[i]?.any chosen).flatMap fun i =>
        (l[i]?.map f).getD [] := by
  induction l with
  | nil => rfl
  | cons a l ih =>
    rw [List.flatMap_cons, ih, List.length_cons, List.range_succ_eq_map, List.filter_cons,
      List.filter_map]
    rcases ha : chosen a with _ | _ <;> simp [ha, List.flatMap_map, Function.comp_def]

/-- The block of the connection `i`. -/
def blockAt (configForOvpn3 : Bool) (i : Nat) : Text :=
  (p.mConnections[i]?.map (·.getConnectionBlock configForOvpn3)).getD []

theorem plainRemotes_of_ne (h : p.mConnections.length ≠ 1) (ovpn3 : Bool) :
    p.plainRemotes ovpn3 =
      (if p.mRemoteRandom then ("remote-random\n" : Text) else [])
        ++ (if p.canUsePlainRemotes then
              p.mConnections.flatMap fun conn =>
                if conn.mEnabled then conn.getConnectionBlock ovpn3 else []
            else []) := by
  rw [plainRemotes]
  split
  · next conn hconn => exact absurd (by rw [hconn]; rfl) h
  · rfl

/-- The configuration lists the blocks of `emitted`, in order: as plain lines at
    the top, or as connection blocks at the end. -/
theorem remotes_eq_emitted (ovpn3 : Bool) :
    let random : Text := if p.writesRemoteRandom then "remote-random\n" else []
    if p.canUsePlainRemotes then
      p.plainRemotes ovpn3 = random ++ p.emitted.flatMap (p.blockAt ovpn3) ∧
        p.connectionBlocks ovpn3 = []
    else
      p.plainRemotes ovpn3 = random ∧
        p.connectionBlocks ovpn3 =
          connectionBlocksComment ++ p.emitted.flatMap fun i =>
            ("<connection>\n" : Text) ++ p.blockAt ovpn3 i ++ ("</connection>\n" : Text) := by
  intro random
  by_cases h1 : p.mConnections.length = 1
  · obtain ⟨conn, hconn⟩ := List.length_eq_one_iff.mp h1
    have hplain : p.canUsePlainRemotes = true := by simp [canUsePlainRemotes, h1]
    have hrandom : p.writesRemoteRandom = false := by simp [writesRemoteRandom, h1]
    have hem : p.emitted = [0] := if_pos h1
    rw [if_pos hplain, connectionBlocks, hplain, hem]
    simp only [random, hrandom, plainRemotes, hconn, blockAt, List.flatMap_cons, List.flatMap_nil,
      List.append_nil, Bool.false_eq_true, if_false, List.nil_append]
    exact ⟨rfl, rfl⟩
  · have hrandom : p.writesRemoteRandom = p.mRemoteRandom := by simp [writesRemoteRandom, h1]
    have hem : p.emitted = (List.range p.mConnections.length).filter p.enabledAt := if_neg h1
    rw [plainRemotes_of_ne p h1, hem]
    simp only [random, hrandom]
    by_cases hplain : p.canUsePlainRemotes = true
    · rw [if_pos hplain, if_pos hplain, connectionBlocks, hplain]
      exact ⟨congrArg _ (flatMap_ite_eq _ _ _), rfl⟩
    · have hblocks : (!p.canUsePlainRemotes) = true := by simpa using hplain
      rw [if_neg hplain, if_neg hplain, connectionBlocks, if_pos hblocks]
      refine ⟨List.append_nil _, congrArg _ ((flatMap_ite_eq _ _ _).trans ?_)⟩
      -- every index of the list has a connection
      apply List.flatMap_congr
      intro i hi
      have hlt : i < p.mConnections.length := List.mem_range.mp (List.mem_filter.mp hi).1
      simp only [blockAt, List.getElem?_eq_getElem hlt, Option.map_some, Option.getD_some]

/-- The query is answered for the connection `j`, with its proxy, and its user
    and password answer the next question. -/
def AnswersFor (detectProxy : VpnProfile → Option (Text × Int)) (query : ProxyQuery) (j : Nat) :
    Prop :=
  ∃ connection, p.mConnections[j]? = some connection ∧
    ∀ current,
      processProxyCMD detectProxy p current query =
          (some j, answerProxy (detectProxy p) query.proto connection.proxySettings) ∧
        processPWCommand p (processProxyCMD detectProxy p current query).1 =
          connection.passwordLines

variable {p}

theorem length_emitted_le : p.emitted.length ≤ p.mConnections.length := by
  rw [emitted]
  split_ifs with h
  · rw [h]; rfl
  · exact (List.length_filter_le _ _).trans (by simp)

/-- The entry that OpenVPN calls `k + 1` is taken to be the connection `k`. -/
theorem answersFor_iff {detectProxy : VpnProfile → Option (Text × Int)} {k j : Nat}
    {proto host : Text} (hk : k < p.mConnections.length) :
    p.AnswersFor detectProxy ⟨k + 1, proto, host⟩ j ↔ j = k := by
  have hlook : p.mConnections[k + 1 - 1]? = some p.mConnections[k] := List.getElem?_eq_getElem hk
  constructor
  · rintro ⟨connection, -, h⟩
    have hcurrent := congrArg Prod.fst (h none).1
    simp only [processProxyCMD, hlook, Option.some.injEq] at hcurrent
    exact hcurrent.symm
  · rintro rfl
    have hj : p.mConnections[j]? = some p.mConnections[j] := List.getElem?_eq_getElem hk
    refine ⟨p.mConnections[j], hj, ?_⟩
    intro current
    simp only [processProxyCMD, Nat.add_sub_cancel, processPWCommand, Option.bind_some, hj,
      and_self]

/-- With at least two connections the enabled ones are listed as a range exactly
    when the disabled ones come last. -/
theorem emitted_eq_range_iff (h : p.mConnections.length ≠ 1) :
    p.emitted = List.range p.emitted.length ↔ p.DisabledLast := by
  rw [emitted, if_neg h, filter_range_eq_range_iff]
  constructor
  · intro hP i j hij hj
    refine hP i j hij ?_ hj
    by_contra hlt
    rw [enabledAt, List.getElem?_eq_none (by omega)] at hj
    exact absurd hj (by decide)
  · intro hP i j hij _ hj
    exact hP i j hij hj

/-- For every profile and every shuffle: the answers are about the connections
    that OpenVPN means exactly when there is one connection only, or the
    disabled ones come last and the list is not shuffled. -/
theorem processProxyCMD_agrees_iff (p : VpnProfile)
    (detectProxy : VpnProfile → Option (Text × Int)) (get_random : Nat → Nat) :
    (∀ k j, (p.connection_list get_random)[k]? = some j → ∀ proto host,
        p.AnswersFor detectProxy ⟨k + 1, proto, host⟩ j) ↔
      p.mConnections.length = 1 ∨
        (p.DisabledLast ∧
          init_connection_list p.writesRemoteRandom get_random p.emitted = p.emitted) := by
  have hperm : (p.connection_list get_random).Perm p.emitted := init_connection_list_perm _ _ _
  -- the answers agree when each entry stands at its own index
  have hrange : (∀ k j, (p.connection_list get_random)[k]? = some j → ∀ proto host,
        p.AnswersFor detectProxy ⟨k + 1, proto, host⟩ j) ↔
      p.connection_list get_random = List.range (p.connection_list get_random).length := by
    rw [eq_range_iff]
    have hlt : ∀ k j, (p.connection_list get_random)[k]? = some j → k < p.mConnections.length := by
      intro k j hkj
      obtain ⟨hk, -⟩ := List.getElem?_eq_some_iff.mp hkj
      exact (hperm.length_eq ▸ hk).trans_le length_emitted_le
    constructor
    · intro h k j hkj
      exact (answersFor_iff (hlt k j hkj)).mp (h k j hkj [] [])
    · intro h k j hkj proto host
      exact (answersFor_iff (hlt k j hkj)).mpr (h k j hkj)
  rw [hrange]
  by_cases h1 : p.mConnections.length = 1
  · -- a single entry, which no shuffle moves
    have hem : p.emitted = [0] := if_pos h1
    rw [hem, List.perm_singleton] at hperm
    rw [hperm]
    exact iff_of_true rfl (.inl h1)
  · rw [← emitted_eq_range_iff h1]
    constructor
    · intro hl
      exact .inr (perm_range_eq hperm p.emitted_pairwise hl)
    · rintro (h | ⟨hem, hl⟩)
      · exact absurd h h1
      · rw [connection_list, hl]
        exact hem

/-- The first server is switched off and the second one has a proxy of its own. -/
def firstDisabled : VpnProfile :=
  { mName := "two servers"
    mConnections :=
      [{ mEnabled := false, mProxyType := .http, mProxyName := "first.example",
         mUseProxyAuth := true, mProxyAuthPassword := some "first" },
       { mProxyType := .http, mProxyName := "second.example",
         mUseProxyAuth := true, mProxyAuthPassword := some "second" }] }

theorem not_processProxyCMD_agrees :
    ¬ ∀ (p : VpnProfile) (detectProxy : VpnProfile → Option (Text × Int)) (get_random : Nat → Nat),
        ∀ k j, (p.connection_list get_random)[k]? = some j → ∀ proto host,
          p.AnswersFor detectProxy ⟨k + 1, proto, host⟩ j := by
  intro h
  obtain ⟨second, hsecond, hanswer⟩ :=
    h firstDisabled (fun _ => .none) id 0 1 (by decide) "TCP" "second.example"
  -- the password of the first proxy goes to the second one
  have hfirst : processPWCommand firstDisabled (some 0) =
      some [("password 'HTTP Proxy' first\n" : Text)] := by decide
  have hlines : second.passwordLines = some [("password 'HTTP Proxy' second\n" : Text)] := by
    obtain rfl := Option.some.inj hsecond
    decide
  have hpw := (hanswer .none).2
  rw [hlines] at hpw
  exact absurd (hfirst.symm.trans hpw) (by decide)

end VpnProfile

end OpenVpnAndroid
