/-
  OpenVpnAndroid/DnsImport.lean
  =============================
  **The DNS servers of an imported configuration.**

  No paragraph of the import but the one for `dhcp-option` touches the servers of the
  profile (`Section.run_keepsDns`).  That one takes a line for the first server when
  the profile still has the default address, so a first line with that very address is
  forgotten at the second one (`dnsServers_kept_iff`).
-/
import OpenVpnAndroid.ImportFrame

namespace OpenVpnAndroid

open Commands

namespace ConfigParser

/-! ### What a paragraph leaves of the profile -/

/-- Code that keeps a property of the profile when it returns. -/
abbrev ProfileKeeping (I : VpnProfile → Prop) (code : Import.Code α) : Prop :=
  Preserves (fun s : Import => I s.np) code

section ProfileKeeping

variable {I : VpnProfile → Prop} {option : Text} {minarg maxarg : Nat}

/-- A look-up changes the options only. -/
theorem lookup_profileKeeping (code : Options.Code α) :
    ProfileKeeping I (liftM code : Import.Code α) := by
  intro s hs
  cases hc : code s.options with
  | error e =>
      rw [lookup_error hc]
      exact True.intro
  | ok r =>
      rw [lookup_ok hc]
      exact ⟨True.intro, hs⟩

theorem lookup_bind_profileKeeping {code : Options.Code α} {rest : α → Import.Code β}
    (hrest : ∀ a, ProfileKeeping I (rest a)) :
    ProfileKeeping I ((liftM code : Import.Code α) >>= rest) :=
  Keeps.bind (lookup_profileKeeping code) fun a _ => hrest a

theorem modifyProfile_profileKeeping {f : VpnProfile → VpnProfile} (hf : ∀ np, I np → I (f np)) :
    ProfileKeeping I (modifyProfile f) :=
  Keeps.modify fun s hs => hf s.np hs

theorem modifyProfile_bind_profileKeeping {f : VpnProfile → VpnProfile}
    {rest : Unit → Import.Code α} (hf : ∀ np, I np → I (f np))
    (hrest : ∀ a, ProfileKeeping I (rest a)) : ProfileKeeping I (modifyProfile f >>= rest) :=
  Keeps.bind (modifyProfile_profileKeeping hf) fun a _ => hrest a

theorem lift_modifyProfile_profileKeeping (x : Java α) {f : α → VpnProfile → VpnProfile}
    (hf : ∀ a np, I np → I (f a np)) :
    ProfileKeeping I ((liftM x : Import.Code α) >>= fun a => modifyProfile (f a)) :=
  Keeps.bind (Preserves.lift x) fun a _ => modifyProfile_profileKeeping (hf a)

theorem whenOption_profileKeeping {code : List Text → Import.Code Unit}
    (hcode : ∀ line, ProfileKeeping I (code line)) :
    ProfileKeeping I (whenOption option minarg maxarg code) := by
  refine lookup_bind_profileKeeping fun r => ?_
  cases r with
  | none => exact Keeps.pure True.intro
  | some line => exact hcode line

theorem whenAllOption_profileKeeping {code : List (List Text) → Import.Code Unit}
    (hcode : ∀ lines, ProfileKeeping I (code lines)) :
    ProfileKeeping I (whenAllOption option minarg maxarg code) := by
  refine lookup_bind_profileKeeping fun r => ?_
  cases r with
  | none => exact Keeps.pure True.intro
  | some lines => exact hcode lines

theorem flag_profileKeeping {set : VpnProfile → VpnProfile} (hset : ∀ np, I np → I (set np)) :
    ProfileKeeping I (flag option maxarg set) :=
  whenOption_profileKeeping fun _ => modifyProfile_profileKeeping hset

theorem argument_profileKeeping {set : Text → VpnProfile → VpnProfile}
    (hset : ∀ arg np, I np → I (set arg np)) : ProfileKeeping I (argument option set) :=
  whenOption_profileKeeping fun _ => lift_modifyProfile_profileKeeping _ hset

theorem authType_profileKeeping {set : Text → VpnProfile → VpnProfile}
    (hset : ∀ arg np, I np → I (set arg np)) : ProfileKeeping I (authType option set) :=
  whenOption_profileKeeping fun _ =>
    Keeps.bind (Preserves.lift _) fun file _ => Keeps.modify fun s hs => hset file s.np hs

end ProfileKeeping

/-! ### The DNS servers of the profile -/

/-- `mOverrideDNS`, `mDNS1` and `mDNS2` -/
structure DnsServers where
  mOverrideDNS : Bool
  mDNS1 : Text
  mDNS2 : Text
deriving DecidableEq, Repr

def dnsServers (np : VpnProfile) : DnsServers := ⟨np.mOverrideDNS, np.mDNS1, np.mDNS2⟩

def HasDns (servers : DnsServers) (np : VpnProfile) : Prop := dnsServers np = servers

theorem dnsServers_applyRedirect (np : VpnProfile) (parameters : List Text) :
    dnsServers (parameters.foldl applyRedirect np) = dnsServers np := by
  induction parameters generalizing np with
  | nil => rfl
  | cons parameter parameters ih =>
      rw [List.foldl_cons, ih, applyRedirect]
      split_ifs <;> rfl

theorem dnsServers_checkRedirectParameters (defgw : List (List Text)) (np : VpnProfile) :
    dnsServers (checkRedirectParameters defgw np) = dnsServers np := by
  simp only [checkRedirectParameters]
  split
  · exact dnsServers_applyRedirect np _
  · exact dnsServers_applyRedirect np _

theorem dnsServers_useEmbbedUserAuth (np : VpnProfile) (inlinedata : Text) :
    dnsServers (useEmbbedUserAuth np inlinedata) = dnsServers np := by
  rw [useEmbbedUserAuth]
  split <;> rfl

theorem dnsServers_applyTlsAuth (servers : DnsServers) (np : VpnProfile) (line : List Text)
    (h : HasDns servers np) :
    Yields (fun _ => True) (HasDns servers) (applyTlsAuth np line) := by
  have hfile : ∀ file : Text,
      HasDns servers (if file ≠ ("[inline]" : Text) then
        { np with mTLSAuthFilename := some file, mUseTLSAuth := true } else np) := by
    intro file
    split
    · exact h
    · exact h
  have hget : ∀ i, Yields (fun _ => True) (fun _ => True) (vectorGet line i) := by
    intro i
    cases vectorGet line i <;> exact True.intro
  refine Yields.bind (hget 1) fun file _ => Yields.ite (fun _ => ?_) fun _ => hfile file
  exact Yields.bind (hget 2) fun direction _ => hfile file

/-- No other paragraph changes the servers. -/
theorem Section.run_keepsDns (env : JavaEnv) {sec : Section} (hsec : sec ≠ .dhcpOption)
    (servers : DnsServers) :
    ProfileKeeping (HasDns servers) (sec.run env) := by
  have hskip : ProfileKeeping (HasDns servers) (pure () : Import.Code Unit) :=
    Keeps.pure True.intro
  cases sec with
  | dhcpOption => exact absurd rfl hsec
  | routeNopull | remoteRandomHostname | float | compLzo | nobind | persistTun | pushPeerInfo
  | remoteRandom => exact flag_profileKeeping fun _ h => h
  | keyDirection | tlsCrypt | tlsCryptV2 | auth | ca | key | x509UsernameField | verb
  | connectRetryMax => exact argument_profileKeeping fun _ _ h => h
  | cert | pkcs12 | cryptoapicert =>
      rw [Section.run]
      exact authType_profileKeeping fun _ _ h => h
  | client =>
      refine Keeps.bind Keeps.get fun s _ => Keeps.ite (fun _ => ?_) fun _ => hskip
      exact modifyProfile_bind_profileKeeping (fun _ h => h) fun _ =>
        Keeps.modify fun _ hs => hs
  | secret =>
      refine whenOption_profileKeeping fun line => Preserves.lift_bind fun file _ => ?_
      refine Keeps.bind (Keeps.modify fun _ hs => hs) fun _ _ => ?_
      exact Keeps.ite (fun _ => lift_modifyProfile_profileKeeping _ fun _ _ h => h) fun _ => hskip
  | route | routeIpv6 | peerFingerprint =>
      exact whenAllOption_profileKeeping fun _ =>
        lift_modifyProfile_profileKeeping _ fun _ _ h => h
  | redirectGateway =>
      refine whenAllOption_profileKeeping fun _ => modifyProfile_profileKeeping fun np h => ?_
      rwa [HasDns, dnsServers_checkRedirectParameters]
  | redirectPrivate => exact whenAllOption_profileKeeping fun _ => hskip
  | tlsAuth =>
      refine whenAllOption_profileKeeping fun lines => Keeps.bind Keeps.get fun s hs => ?_
      refine Keeps.bind (Keeps.lift (Yields.foldlM_keeps ?_ hs)) fun np hnp => ?_
      · exact fun np line _ h => dnsServers_applyTlsAuth servers np line h
      · exact modifyProfile_profileKeeping fun _ _ => hnp
  | dev =>
      refine lookup_bind_profileKeeping fun dev => ?_
      refine lookup_bind_profileKeeping fun devtype => ?_
      refine Preserves.lift_bind fun isTun _ => Preserves.lift_bind fun startsWithTun _ => ?_
      exact Keeps.ite (fun _ => hskip) fun _ => Preserves.lift _
  | mssfix =>
      refine whenOption_profileKeeping fun line => Preserves.lift_bind fun size _ => ?_
      refine modifyProfile_bind_profileKeeping (fun _ h => h) fun _ => ?_
      refine Keeps.ite (fun _ => Preserves.lift_bind fun arg _ => ?_) fun _ => hskip
      exact Keeps.ite (fun _ => Preserves.lift _) fun _ => hskip
  | tunMtu | compatMode | protoForce =>
      refine whenOption_profileKeeping fun line => Preserves.lift_bind fun _ _ => ?_
      exact lift_modifyProfile_profileKeeping _ fun _ _ h => h
  | ifconfig =>
      refine whenOption_profileKeeping fun line => ?_
      refine Preserves.lift_bind fun _ _ => Preserves.lift_bind fun _ _ => ?_
      exact lift_modifyProfile_profileKeeping _ fun _ _ h => h
  | mode =>
      refine whenOption_profileKeeping fun line => Preserves.lift_bind fun _ _ => ?_
      exact Keeps.ite (fun _ => Preserves.lift _) fun _ => hskip
  | ciphers =>
      refine lookup_bind_profileKeeping fun ncp_ciphers => ?_
      refine lookup_bind_profileKeeping fun data_ciphers => ?_
      refine lookup_bind_profileKeeping fun cipher => ?_
      refine Keeps.bind Keeps.get fun s _ => Preserves.lift_bind fun cipher _ => ?_
      exact lift_modifyProfile_profileKeeping _ fun _ _ h => h
  | tlsCertProfile =>
      refine whenOption_profileKeeping fun line => Preserves.lift_bind fun profile _ => ?_
      have hcheck : ProfileKeeping (HasDns servers) (do
          if profile ≠ (← get).np.mTlSCertProfile then
            configParseError (("Invalid tls-cert-profile '" : Text) ++ profile ++ ("'" : Text))) :=
        Keeps.bind Keeps.get fun s _ => Keeps.ite (fun _ => Preserves.lift _) fun _ => hskip
      refine Keeps.ite (fun _ => ?_) fun _ => hcheck
      exact modifyProfile_bind_profileKeeping (fun _ h => h) fun _ => hcheck
  | provider =>
      refine whenOption_profileKeeping fun line => Preserves.lift_bind fun _ _ => ?_
      exact Keeps.ite (fun _ => modifyProfile_profileKeeping fun _ h => h) fun _ => hskip
  | tlsRemote =>
      refine lookup_bind_profileKeeping fun compatnames => ?_
      refine lookup_bind_profileKeeping fun nonameremapping => ?_
      exact whenOption_profileKeeping fun line =>
        lift_modifyProfile_profileKeeping _ fun _ _ h => h
  | verifyX509Name =>
      refine whenOption_profileKeeping fun line => Preserves.lift_bind fun _ _ => ?_
      exact lift_modifyProfile_profileKeeping _ fun _ _ h => h
  | connectRetry =>
      refine whenOption_profileKeeping fun line => Preserves.lift_bind fun _ _ => ?_
      refine modifyProfile_bind_profileKeeping (fun _ h => h) fun _ => ?_
      exact Keeps.ite (fun _ => lift_modifyProfile_profileKeeping _ fun _ _ h => h) fun _ => hskip
  | remoteCertTls =>
      refine whenAllOption_profileKeeping fun lines => ?_
      refine Preserves.lift_bind fun line _ => Preserves.lift_bind fun type _ => ?_
      exact Keeps.ite (fun _ => modifyProfile_profileKeeping fun _ h => h) fun _ =>
        Keeps.modify fun _ hs => hs
  | authUserPass =>
      refine whenOption_profileKeeping fun line => ?_
      refine Keeps.bind (Keeps.modify fun _ hs => hs) fun _ _ => ?_
      refine Keeps.ite (fun _ => Preserves.lift_bind fun file _ => ?_) fun _ => hskip
      refine Keeps.modify fun s hs => ?_
      exact (dnsServers_useEmbbedUserAuth _ _).trans hs
  | authRetry =>
      refine whenOption_profileKeeping fun line => Preserves.lift_bind fun type _ => ?_
      cases authRetryType type with
      | some retry => exact modifyProfile_profileKeeping fun _ h => h
      | none => exact Preserves.lift_bind fun _ _ => Preserves.lift _
  | crlVerify =>
      refine whenOption_profileKeeping fun line => Preserves.lift_bind fun isDir _ => ?_
      exact Keeps.ite (fun _ => modifyProfile_profileKeeping fun _ h => h) fun _ =>
        lift_modifyProfile_profileKeeping _ fun _ _ h => h
  | connections =>
      refine lookup_bind_profileKeeping fun r => ?_
      refine modifyProfile_bind_profileKeeping (fun _ h => h) fun _ => ?_
      refine whenAllOption_profileKeeping fun blocks => ?_
      refine Keeps.ite (fun _ => Preserves.lift _) fun _ => ?_
      exact lift_modifyProfile_profileKeeping _ fun _ _ h => h
  | accessServer =>
      exact Keeps.bind Keeps.get fun _ _ => modifyProfile_profileKeeping fun _ h => h
  | fixup =>
      rw [Section.run, ConfigParser.fixup]
      refine modifyProfile_profileKeeping fun np h => ?_
      split
      · exact h
      · exact h
  | checkIgnoreAndInvalidOptions =>
      refine Keeps.bind Keeps.get fun s hs => ?_
      dsimp only
      split
      · exact Preserves.lift _
      · generalize ignoreOptions.foldl OptionMap.remove s.options = options
        refine Keeps.bind (Keeps.modify fun _ hs => hs) fun _ _ => ?_
        exact Keeps.ite (fun _ => modifyProfile_profileKeeping fun _ h => h) fun _ => hskip

/-! ### The lines of `dhcp-option` -/

/-- The address of a `DNS` line. -/
def dnsServer (dhcpoption : List Text) : Option Text :=
  if dhcpoption[1]? = some ("DNS" : Text) then dhcpoption[2]? else none

/-- The addresses that the configuration names, in order. -/
def namedServers (options : OptionMap) : List Text :=
  ((OptionMap.get options "dhcp-option").getD []).filterMap dnsServer

/-- What one address does to the servers. -/
def DnsServers.add (servers : DnsServers) (arg : Text) : DnsServers :=
  if servers.mDNS1 = VpnProfile.DEFAULT_DNS1 then ⟨true, arg, []⟩
  else ⟨true, servers.mDNS1, arg⟩

theorem getElem?_of_vectorGet {v : List α} {i : Nat} {a : α} (h : vectorGet v i = .ok a) :
    v[i]? = some a := by
  rw [vectorGet] at h
  split at h
  · rename_i b hb
    rw [hb, Except.ok.inj h]
  · cases h

theorem dnsServers_applyDhcpOption {np np' : VpnProfile} {line : List Text}
    (h : applyDhcpOption np line = .ok np') :
    dnsServers np' = (dnsServer line).toList.foldl DnsServers.add (dnsServers np) := by
  rw [applyDhcpOption] at h
  cases htype : vectorGet line 1 with
  | error e =>
      rw [htype] at h
      cases h
  | ok type =>
      cases harg : vectorGet line 2 with
      | error e =>
          rw [htype, harg] at h
          cases h
      | ok arg =>
          rw [htype, harg, ok_bind, ok_bind] at h
          rw [dnsServer, getElem?_of_vectorGet htype, getElem?_of_vectorGet harg]
          split_ifs at h with hdomain hdns hdefault
          · obtain rfl := Except.ok.inj h
            rw [hdomain, if_neg (by decide)]
            rfl
          · obtain rfl := Except.ok.inj h
            rw [hdns, if_pos rfl, Option.toList_some, List.foldl_cons, DnsServers.add,
              if_pos (show (dnsServers np).mDNS1 = _ from hdefault)]
            rfl
          · obtain rfl := Except.ok.inj h
            rw [hdns, if_pos rfl, Option.toList_some, List.foldl_cons, DnsServers.add,
              if_neg (show ¬(dnsServers np).mDNS1 = _ from hdefault)]
            rfl
          · obtain rfl := Except.ok.inj h
            rw [if_neg fun heq => hdns (Option.some.inj heq)]
            rfl

theorem dnsServers_foldlM {lines : List (List Text)} {np np' : VpnProfile}
    (h : lines.foldlM applyDhcpOption np = .ok np') :
    dnsServers np' = (lines.filterMap dnsServer).foldl DnsServers.add (dnsServers np) := by
  induction lines generalizing np with
  | nil =>
      obtain rfl := Except.ok.inj h
      rfl
  | cons line lines ih =>
      rw [List.foldlM_cons] at h
      cases hline : applyDhcpOption np line with
      | error e =>
          rw [hline] at h
          cases h
      | ok np₁ =>
          rw [hline, ok_bind] at h
          rw [ih h, dnsServers_applyDhcpOption hline]
          cases hserver : dnsServer line with
          | none => rw [List.filterMap_cons_none hserver]; rfl
          | some server => rw [List.filterMap_cons_some hserver]; rfl

/-- The paragraph. -/
theorem dnsServers_dhcpOption {s s' : Import} (h : dhcpOption s = .ok ((), s')) :
    dnsServers s'.np = (namedServers s.options).foldl DnsServers.add (dnsServers s.np) := by
  rw [dhcpOption] at h
  rcases found_cases s.options "dhcp-option" 2 2 with hget | ⟨lines, hfound⟩ | ⟨-, line, hbad⟩
  · rw [whenAllOption_of_none hget] at h
    cases h
    rw [namedServers, hget]
    rfl
  · rw [whenAllOption_of_found hfound] at h
    rw [namedServers, hfound.1]
    have hget : (get : Import.Code Import) { s with
        options := OptionMap.remove s.options "dhcp-option" } = .ok (_, _) := rfl
    rw [bind_ok hget] at h
    cases hfold : lines.foldlM applyDhcpOption s.np with
    | error e =>
        rw [bind_error (lift_error hfold)] at h
        cases h
    | ok np =>
        rw [bind_ok (lift_ok hfold)] at h
        cases h
        exact dnsServers_foldlM hfold
  · rw [whenAllOption, bind_error (lookup_error hbad)] at h
    cases h

/-! ### The fold -/

/-- Once the first server is not the default one, it stays. -/
theorem foldl_add_of_ne (servers : DnsServers) (hne : servers.mDNS1 ≠ VpnProfile.DEFAULT_DNS1)
    (args : List Text) :
    args.foldl DnsServers.add servers =
      (args.getLast?.map fun last => ⟨true, servers.mDNS1, last⟩).getD servers := by
  induction args using List.reverseRecOn with
  | nil => rfl
  | append_singleton args arg ih =>
      have hkept : (args.foldl DnsServers.add servers).mDNS1 = servers.mDNS1 := by
        rw [ih]
        cases args.getLast? <;> rfl
      rw [List.foldl_append, List.foldl_cons, List.foldl_nil, DnsServers.add, hkept, if_neg hne,
        List.getLast?_concat]
      rfl

/-- The default address is the first one only as long as every address was it. -/
theorem foldl_add_default (servers : DnsServers) {args : List Text} (hne : args ≠ []) :
    (args.foldl DnsServers.add servers).mDNS1 ≠ VpnProfile.DEFAULT_DNS1 ∨
      (args.foldl DnsServers.add servers).mDNS2 = [] ∧
        args.getLast? = some VpnProfile.DEFAULT_DNS1 := by
  induction args using List.reverseRecOn with
  | nil => exact absurd rfl hne
  | append_singleton args arg _ =>
      rw [List.foldl_append, List.foldl_cons, List.foldl_nil, DnsServers.add,
        List.getLast?_concat]
      split
      · by_cases harg : arg = VpnProfile.DEFAULT_DNS1
        · exact Or.inr ⟨rfl, by rw [harg]⟩
        · exact Or.inl harg
      · rename_i hfirst
        exact Or.inl hfirst

/-- The first address and, if there are several, the last one. -/
structure DnsServers.Keep (servers : DnsServers) (named : List Text) : Prop where
  mOverrideDNS : servers.mOverrideDNS = true
  first : named.head? = some servers.mDNS1
  last : servers.mDNS2 = if 2 ≤ named.length then named.getLast?.getD [] else []

theorem keep_foldl_iff {servers : DnsServers} (hstart : servers.mDNS1 = VpnProfile.DEFAULT_DNS1)
    {named : List Text} (hne : named ≠ []) :
    (named.foldl DnsServers.add servers).Keep named ↔
      named.length = 1 ∨ named.head? ≠ some VpnProfile.DEFAULT_DNS1 := by
  cases named with
  | nil => exact absurd rfl hne
  | cons first rest =>
      have hfirst : servers.add first = ⟨true, first, []⟩ := by
        rw [DnsServers.add, if_pos hstart]
      cases rest with
      | nil =>
          refine iff_of_true ?_ (Or.inl rfl)
          rw [List.foldl_cons, List.foldl_nil, hfirst]
          exact ⟨rfl, rfl, rfl⟩
      | cons second rest =>
          rw [List.foldl_cons, hfirst]
          by_cases hdefault : first = VpnProfile.DEFAULT_DNS1
          · refine iff_of_false ?_ (by simp [hdefault])
            rintro ⟨-, hhead, hlast⟩
            rcases foldl_add_default ⟨true, first, []⟩ (List.cons_ne_nil second rest) with
              hother | ⟨hempty, hgetLast⟩
            · exact hother ((Option.some.inj hhead).symm.trans hdefault)
            · rw [hempty, if_pos (by simp), List.getLast?_cons_cons, hgetLast] at hlast
              exact absurd hlast (by decide)
          · refine iff_of_true ?_ (Or.inr fun heq => hdefault (Option.some.inj heq))
            rw [foldl_add_of_ne _ hdefault, List.getLast?_eq_some_getLast (List.cons_ne_nil _ _)]
            refine ⟨rfl, rfl, ?_⟩
            rw [if_pos (by simp), List.getLast?_cons_cons,
              List.getLast?_eq_some_getLast (List.cons_ne_nil _ _)]
            rfl

/-! ### The whole import -/

theorem runSections_cons_eq_ok {env : JavaEnv} {sec : Section} {secs : List Section}
    {s s' : Import} :
    runSections env (sec :: secs) s = .ok s' ↔
      ∃ r, sec.run env s = .ok r ∧ runSections env secs r.2 = .ok s' := by
  rw [runSections]
  cases hsec : sec.run env s with
  | error e => simp
  | ok r => simp

theorem runSections_append {env : JavaEnv} {secs secs' : List Section} {s s' : Import}
    (h : runSections env (secs ++ secs') s = .ok s') :
    ∃ t, runSections env secs s = .ok t ∧ runSections env secs' t = .ok s' := by
  induction secs generalizing s with
  | nil => exact ⟨s, rfl, h⟩
  | cons sec secs ih =>
      obtain ⟨r, hsec, hrest⟩ := runSections_cons_eq_ok.mp h
      obtain ⟨t, ht, hlast⟩ := ih hrest
      exact ⟨t, runSections_cons_eq_ok.mpr ⟨r, hsec, ht⟩, hlast⟩

/-- What every paragraph keeps. -/
theorem runSections_keeps {env : JavaEnv} {I : Import → Prop} {secs : List Section}
    (hkeep : ∀ sec ∈ secs, Preserves I (sec.run env)) {s s' : Import} (hs : I s)
    (h : runSections env secs s = .ok s') : I s' := by
  induction secs generalizing s with
  | nil =>
      obtain rfl := Except.ok.inj h
      exact hs
  | cons sec secs ih =>
      obtain ⟨r, hsec, hrest⟩ := runSections_cons_eq_ok.mp h
      have hr : I r.2 := (hkeep sec List.mem_cons_self).of_ok hs hsec
      exact ih (fun sec hmem => hkeep sec (List.mem_cons_of_mem _ hmem)) hr hrest

theorem get_filter {options : OptionMap} {name : Text} {p : Text → Bool} (hp : p name = true) :
    OptionMap.get (options.filter fun e => p e.1) name = OptionMap.get options name := by
  rw [OptionMap.get, OptionMap.get, List.find?_filter]
  congr 2
  funext e
  by_cases he : e.1 = name
  · simp [he, hp]
  · simp [he]

/-- The lines of an option outlast the paragraphs that do not take it out. -/
theorem filtered_get {name : Text} {names : List Text} (hname : name ∉ names)
    (lines : Option (List (List Text))) :
    Filtered (fun options => OptionMap.get options name = lines) names := by
  intro options p hp hget
  rw [get_filter (hp name hname), hget]

theorem not_mem_names {sec : Section} (hsec : sec ≠ .dhcpOption) :
    ("dhcp-option" : Text) ∉ sec.names := by
  cases sec <;> first | exact absurd rfl hsec | decide +kernel

/-- The servers of an imported profile. -/
theorem dnsServers_convertProfile {env : JavaEnv} {p : ConfigParser} {np : VpnProfile}
    (h : convertProfile env p = .ok np) :
    dnsServers np = (namedServers p.options).foldl DnsServers.add (dnsServers clearDefaults) := by
  have hsplit : paragraphs = paragraphs.takeWhile (· != .dhcpOption) ++
      .dhcpOption :: (paragraphs.dropWhile (· != .dhcpOption)).tail := by decide
  have hbefore : ∀ sec ∈ paragraphs.takeWhile (· != .dhcpOption),
      sec ≠ .dhcpOption ∧ sec ≠ .remoteCertTls := by decide
  have hafter : ∀ sec ∈ (paragraphs.dropWhile (· != .dhcpOption)).tail, sec ≠ .dhcpOption := by
    decide
  rw [convertProfile] at h
  cases hrun : runSections env paragraphs (Import.start p) with
  | error e =>
      rw [hrun] at h
      cases h
  | ok last =>
      rw [hrun] at h
      obtain rfl := Except.ok.inj h
      rw [hsplit] at hrun
      obtain ⟨s, hfirst, hrest⟩ := runSections_append hrun
      obtain ⟨r, hdhcp, hrest⟩ := runSections_cons_eq_ok.mp hrest
      have hoptions : OptionMap.get s.options "dhcp-option" =
          OptionMap.get p.options "dhcp-option" :=
        runSections_keeps (I := fun t => OptionMap.get t.options "dhcp-option" =
            OptionMap.get p.options "dhcp-option")
          (fun sec hmem => sec.run_keeping env
            (filtered_get (not_mem_names (hbefore sec hmem).1) _)
            fun heq => absurd heq (hbefore sec hmem).2) rfl hfirst
      have hs : HasDns (dnsServers clearDefaults) s.np :=
        runSections_keeps (I := fun t => HasDns (dnsServers clearDefaults) t.np)
          (s := Import.start p)
          (fun sec hmem => Section.run_keepsDns env (hbefore sec hmem).1 _) rfl hfirst
      have hlast : HasDns (dnsServers r.2.np) last.np :=
        runSections_keeps (I := fun t => HasDns (dnsServers r.2.np) t.np)
          (fun sec hmem => Section.run_keepsDns env (hafter sec hmem) _) rfl hrest
      have hadded := dnsServers_dhcpOption hdhcp
      rw [hlast, hadded, hs, namedServers, hoptions, namedServers]

/-- An import keeps the servers that the configuration names exactly when there is one,
    or when the first one is not the default address. -/
theorem dnsServers_kept_iff (env : JavaEnv) (p : ConfigParser) {np : VpnProfile}
    (h : convertProfile env p = .ok np) (hnamed : namedServers p.options ≠ []) :
    (dnsServers np).Keep (namedServers p.options) ↔
      (namedServers p.options).length = 1 ∨
        (namedServers p.options).head? ≠ some VpnProfile.DEFAULT_DNS1 := by
  rw [dnsServers_convertProfile h]
  exact keep_foldl_iff rfl hnamed

/-- Two servers of which the second has the default address. -/
theorem dnsServers_kept_iff_lan :
    let p : ConfigParser :=
      ⟨[("dhcp-option", [["dhcp-option", "DNS", "10.0.0.1"], ["dhcp-option", "DOMAIN", "lan"],
        ["dhcp-option", "DNS", "9.9.9.9"]])], []⟩
    (dnsServers { clearDefaults with
        mOverrideDNS := true
        mDNS1 := "10.0.0.1"
        mDNS2 := "9.9.9.9"
        mSearchDomain := "lan"
        mConnections := [] }).Keep (namedServers p.options) ↔
      (namedServers p.options).length = 1 ∨
        (namedServers p.options).head? ≠ some VpnProfile.DEFAULT_DNS1 := by
  intro p
  exact dnsServers_kept_iff JavaEnv.sorted p (by decide +kernel) (by decide +kernel)

/-- The first server has the default address: the profile has the second one only. -/
theorem dnsServers_not_kept :
    ¬∀ env p np, convertProfile env p = .ok np → namedServers p.options ≠ [] →
      (dnsServers np).Keep (namedServers p.options) := by
  intro h
  have hkeep := h JavaEnv.sorted
    ⟨[("dhcp-option", [["dhcp-option", "DNS", "9.9.9.9"], ["dhcp-option", "DNS", "1.1.1.1"]])], []⟩
    { clearDefaults with mOverrideDNS := true, mDNS1 := "1.1.1.1", mDNS2 := [], mConnections := [] }
    (by decide +kernel) (by decide +kernel)
  exact absurd hkeep.first (by decide +kernel)

end ConfigParser

end OpenVpnAndroid
