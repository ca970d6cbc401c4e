/-
  OpenVpnAndroid/CheckedConfig.lean
  =================================
  **What `checkProfile` promises of the configuration that `getConfigFile` writes.**

  The routes of a profile are words between blanks, tabs and line feeds.  The check
  wants that one route comes out of a text; but the loop stops at the first word that
  it cannot convert, and the words after it are lost (`routesKept_iff`).

  The check of the ciphers is right about the cipher and the version, but its copy of
  `mDataCiphers` is always empty, so a list that names `BF-CBC` passes
  (`ciphersSound_iff`).
-/
import OpenVpnAndroid.ProfileChecks
import OpenVpnAndroid.TextDecoding
import OpenVpnAndroid.Words

namespace OpenVpnAndroid

/-! ### Numbers -/

/-- No decimal digit is white space. -/
theorem isWhitespace_of_digit {c : Char} (h : (digit c).isSome = true) :
    isWhitespace c = false := by
  rw [digit, Option.isSome_map, List.find?_isSome] at h
  obtain ⟨z, hz, hc⟩ := h
  simp only [Bool.and_eq_true, decide_eq_true_eq] at hc
  simp only [digitZeros, List.mem_cons, List.not_mem_nil, or_false] at hz
  rw [isWhitespace, ← Bool.not_eq_true]
  simp only [Bool.or_eq_true, Bool.and_eq_true, decide_eq_true_eq, beq_iff_eq]
  omega

/-- A number is written without white space. -/
theorem isWhitespace_of_parseInt {s : Text} {n : Int} (h : parseInt s = some n) :
    ∀ c ∈ s, isWhitespace c = false := by
  intro c hc
  rcases mem_of_parseSigned h c hc with rfl | rfl | hdigit
  · decide
  · decide
  · exact isWhitespace_of_digit hdigit

namespace VpnProfile

/-! ### Words that are routes -/

/-- The word is `ip/len`, or `ip` alone for the length 32. -/
def IsRoute (word ip : Text) (len : Nat) : Prop :=
  ('/' ∉ word ∧ ip = word ∧ len = 32) ∨
    ∃ prefixLength, split (· == '/') word = [ip, prefixLength] ∧
      parseInt prefixLength = some (len : Int) ∧ len ≤ 32

theorem split_of_not_mem {word : Text} (h : '/' ∉ word) : split (· == '/') word = [word] := by
  have hnone : word.any (· == '/') = false := by
    simp only [List.any_eq_false, beq_iff_eq]
    rintro c hc rfl
    exact h hc
  rw [split, hnone]
  rfl

/-- A slash more, and a last piece that is not empty. -/
theorem split_append_slash (word : Text) {last : Text} (hlast : '/' ∉ last) (hne : last ≠ []) :
    split (· == '/') (word ++ '/' :: last) = pieces (· == '/') word ++ [last] := by
  have hnone : ∀ x ∈ last, (x == '/') = false := by
    intro x hx
    rw [beq_eq_false_iff_ne]
    rintro rfl
    exact hlast hx
  exact split_append_cons word (by simp) hnone hne

theorem two_le_length_pieces {word : Text} (h : '/' ∈ word) :
    2 ≤ (pieces (· == '/') word).length := by
  obtain ⟨before, after, rfl⟩ := List.append_of_mem h
  have hpos : ∀ s, 1 ≤ (pieces (· == '/') s).length := by
    intro s
    rw [pieces_eq]
    simp
  rw [pieces_append_cons before (by simp), List.length_append]
  have hbefore := hpos before
  have hafter := hpos after
  omega

/-- A length that is in range. -/
theorem length_eq_some_iff {prefixLength ip cidr : Text} :
    ((parseInt prefixLength).bind fun len =>
      if len < 0 ∨ len > 32 then none
      else some (ip ++ ("  " : Text) ++ netmask len.toNat)) = some cidr ↔
    ∃ len : Nat, parseInt prefixLength = some (len : Int) ∧ len ≤ 32 ∧
      cidr = ip ++ ("  " : Text) ++ netmask len := by
  cases hparse : parseInt prefixLength with
  | none => simp
  | some n =>
      rw [Option.bind_some]
      split
      · rename_i hbad
        refine iff_of_false nofun ?_
        rintro ⟨len, hlen, hle, -⟩
        have hn : n = (len : Int) := Option.some.inj hlen
        omega
      · rename_i hgood
        have hn : ((n.toNat : Nat) : Int) = n := Int.toNat_of_nonneg (by omega)
        constructor
        · intro h
          exact ⟨n.toNat, by rw [hn], by omega, (Option.some.inj h).symm⟩
        · rintro ⟨len, hlen, -, rfl⟩
          rw [Option.some.inj hlen, Int.toNat_natCast]

theorem split_append_32 (word : Text) :
    split (· == '/') (word ++ ("/32" : Text)) = pieces (· == '/') word ++ [("32" : Text)] :=
  @split_append_slash word ("32" : Text) (by decide) (by decide)

/-- Two parts, of which the second is the length. -/
theorem cidrToIPAndNetmask_of_parts {word ip prefixLength cidr : Text}
    (hparts : split (· == '/') word = [ip, prefixLength]) :
    cidrToIPAndNetmask word = some cidr ↔
      ∃ len : Nat, parseInt prefixLength = some (len : Int) ∧ len ≤ 32 ∧
        cidr = ip ++ ("  " : Text) ++ netmask len := by
  rw [cidrToIPAndNetmask, hparts]
  exact length_eq_some_iff

/-- Without a slash the length is 32. -/
theorem cidrToIPAndNetmask_of_not_mem {word : Text} (h : '/' ∉ word) :
    cidrToIPAndNetmask word = some (word ++ ("  " : Text) ++ netmask 32) := by
  have hpieces : pieces (· == '/') word = [word] := by
    apply pieces_of_none
    intro x hx
    rw [beq_eq_false_iff_ne]
    rintro rfl
    exact h hx
  have h32 : parseInt ("32" : Text) = some ((32 : Nat) : Int) := by decide
  rw [cidrToIPAndNetmask]
  simp only [split_of_not_mem h, List.length_singleton, if_true, split_append_32, hpieces,
    List.singleton_append]
  exact length_eq_some_iff.mpr ⟨32, h32, le_rfl, rfl⟩

/-- Slashes at the end alone leave one part, and then three with the length. -/
theorem cidrToIPAndNetmask_eq_none {word : Text} (hslash : '/' ∈ word)
    (hparts : ∀ ip prefixLength, split (· == '/') word ≠ [ip, prefixLength]) :
    cidrToIPAndNetmask word = none := by
  have hlong : ∀ x y : Text, pieces (· == '/') word ++ [("32" : Text)] ≠ [x, y] := by
    intro x y heq
    have hlen := congrArg List.length heq
    have htwo := two_le_length_pieces hslash
    simp only [List.length_append, List.length_cons, List.length_nil] at hlen
    omega
  rw [cidrToIPAndNetmask, split_append_32]
  split
  · rename_i ip prefixLength heq
    split at heq
    · exact absurd heq (hlong ip prefixLength)
    · exact absurd heq (hparts ip prefixLength)
  · rfl

/-- The words that `cidrToIPAndNetmask` converts, and what comes of them. -/
theorem cidrToIPAndNetmask_eq_some_iff {word cidr : Text} :
    cidrToIPAndNetmask word = some cidr ↔
      ∃ ip len, IsRoute word ip len ∧ cidr = ip ++ ("  " : Text) ++ netmask len := by
  by_cases hslash : '/' ∈ word
  · by_cases hparts : ∃ ip prefixLength, split (· == '/') word = [ip, prefixLength]
    · obtain ⟨ip, prefixLength, hparts⟩ := hparts
      rw [cidrToIPAndNetmask_of_parts hparts]
      constructor
      · rintro ⟨len, hlen, hle, hcidr⟩
        exact ⟨ip, len, Or.inr ⟨prefixLength, hparts, hlen, hle⟩, hcidr⟩
      · rintro ⟨ip', len, ⟨hno, -, -⟩ | ⟨prefixLength', hparts', hlen, hle⟩, hcidr⟩
        · exact absurd hslash hno
        · rw [hparts] at hparts'
          obtain ⟨rfl, hrest⟩ := List.cons.inj hparts'
          obtain ⟨rfl, -⟩ := List.cons.inj hrest
          exact ⟨len, hlen, hle, hcidr⟩
    · have hnone : ∀ ip prefixLength, split (· == '/') word ≠ [ip, prefixLength] :=
        fun ip prefixLength heq => hparts ⟨ip, prefixLength, heq⟩
      rw [cidrToIPAndNetmask_eq_none hslash hnone]
      refine iff_of_false nofun ?_
      rintro ⟨ip, len, ⟨hno, -, -⟩ | ⟨prefixLength, heq, -, -⟩, -⟩
      · exact hno hslash
      · exact hnone ip prefixLength heq
  · rw [cidrToIPAndNetmask_of_not_mem hslash]
    constructor
    · intro h
      exact ⟨word, 32, Or.inl ⟨hslash, rfl, rfl⟩, (Option.some.inj h).symm⟩
    · rintro ⟨ip, len, ⟨-, rfl, rfl⟩ | ⟨prefixLength, hparts, -, -⟩, rfl⟩
      · rfl
      · rw [split_of_not_mem hslash] at hparts
        cases hparts

theorem IsRoute.subset {word ip : Text} {len : Nat} (h : IsRoute word ip len) : ip ⊆ word := by
  rcases h with ⟨-, rfl, -⟩ | ⟨prefixLength, hparts, -, -⟩
  · exact List.Subset.refl _
  · intro c hc
    have hmem : ip ∈ words (· == '/') word := by
      rw [← filter_split, hparts]
      exact List.mem_filter.mpr ⟨List.mem_cons_self, by simpa using List.ne_nil_of_mem hc⟩
    exact subset_of_mem_words hmem hc

/-- The rest of the word is a slash and a number. -/
theorem IsRoute.isWhitespace_of_ip {word ip : Text} {len : Nat} (h : IsRoute word ip len)
    (hip : ∀ c ∈ ip, isWhitespace c = false) : ∀ c ∈ word, isWhitespace c = false := by
  rcases h with ⟨-, rfl, -⟩ | ⟨prefixLength, hparts, hlen, -⟩
  · exact hip
  · intro c hc
    cases hslash : c == '/' with
    | true =>
        rw [beq_iff_eq.mp hslash]
        decide
    | false =>
        obtain ⟨part, hpart, hmem⟩ := @exists_word (· == '/') word c hc hslash
        rw [← filter_split, hparts] at hpart
        rcases List.mem_cons.mp (List.mem_of_mem_filter hpart) with rfl | hpart
        · exact hip c hmem
        · rw [List.mem_singleton.mp hpart] at hmem
          exact isWhitespace_of_parseInt hlen c hmem

/-! ### The routes in `getConfigFile` -/

def routeLine (gateway route : Text) : Text :=
  ("route " : Text) ++ route ++ (" " : Text) ++ gateway ++ ("\n" : Text)

/-- The local variable `routes`, a text for each line, before the IPv6 routes. -/
def routes (p : VpnProfile) : List Text :=
  if p.mUseDefaultRoute then ["route 0.0.0.0 0.0.0.0 vpn_gateway\n"]
  else
    (getCustomRoutes p.mCustomRoutes).map (routeLine "vpn_gateway")
      ++ (getCustomRoutes p.mExcludedRoutes).map (routeLine "net_gateway")

/-- The line that the word stands for. -/
def LineOf (gateway word line : Text) : Prop :=
  ∃ ip len, IsRoute word ip len ∧ line = routeLine gateway (ip ++ ("  " : Text) ++ netmask len)

/-- The words of a field. -/
def routeWords (routes : Option Text) : List Text := words isWhitespace (routes.getD [])

/-- A line for each word, in order. -/
def RoutesKept (p : VpnProfile) : Prop :=
  ∃ vpn net, p.routes = vpn ++ net ∧
    List.Forall₂ (LineOf "vpn_gateway") (routeWords p.mCustomRoutes) vpn ∧
    List.Forall₂ (LineOf "net_gateway") (routeWords p.mExcludedRoutes) net

/-- The words are separated by blanks, tabs and line feeds, and each is a route. -/
def Readable (routes : Option Text) : Prop :=
  (∀ c ∈ routes.getD [], isWhitespace c = true → c = '\n' ∨ c = ' ' ∨ c = '\t') ∧
    ∀ word ∈ routeWords routes, ∃ ip len, IsRoute word ip len

/-! ### One field -/

/-- What `getCustomRoutes` splits at. -/
def blank (c : Char) : Bool := c == '\n' || c == ' ' || c == '\t'

theorem blank_iff {c : Char} : blank c = true ↔ c = '\n' ∨ c = ' ' ∨ c = '\t' := by
  simp [blank, or_assoc]

theorem isWhitespace_of_blank (c : Char) (h : blank c = true) : isWhitespace c = true := by
  rcases blank_iff.mp h with rfl | rfl | rfl <;> decide

theorem customRoutes_filter (l : List Text) :
    customRoutes (l.filter fun w => !w.isEmpty) = customRoutes l := by
  induction l with
  | nil => rfl
  | cons w l ih =>
      cases hw : w.isEmpty with
      | true =>
          rw [List.filter_cons_of_neg (by simp [hw]), ih, customRoutes, if_pos hw]
      | false =>
          rw [List.filter_cons_of_pos (by simp [hw]), customRoutes, customRoutes, hw, ih]

theorem getCustomRoutes_eq (routes : Option Text) :
    getCustomRoutes routes = customRoutes (words blank (routes.getD [])) := by
  cases routes with
  | none => rfl
  | some routes => rw [getCustomRoutes, Option.getD_some, ← filter_split, customRoutes_filter]; rfl

theorem customRoutes_cons {word : Text} (hne : word ≠ []) (ws : List Text) :
    customRoutes (word :: ws) =
      match cidrToIPAndNetmask word with
      | none => []
      | some cidrroute => cidrroute :: customRoutes ws := by
  rw [customRoutes]
  exact if_neg (by simpa using hne)

/-- Routes of which each was converted. -/
theorem forall₂_lineOf {gateway : Text} {ws : List Text} (hne : ∀ w ∈ ws, w ≠ [])
    (hroutes : ∀ w ∈ ws, ∃ ip len, IsRoute w ip len) :
    List.Forall₂ (LineOf gateway) ws ((customRoutes ws).map (routeLine gateway)) := by
  induction ws with
  | nil => exact .nil
  | cons w ws ih =>
      obtain ⟨ip, len, hroute⟩ := hroutes w List.mem_cons_self
      have hcidr : cidrToIPAndNetmask w = some (ip ++ ("  " : Text) ++ netmask len) :=
        cidrToIPAndNetmask_eq_some_iff.mpr ⟨ip, len, hroute, rfl⟩
      have hrest := ih (fun w hw => hne w (List.mem_cons_of_mem _ hw)) fun w hw =>
        hroutes w (List.mem_cons_of_mem _ hw)
      rw [customRoutes_cons (hne w List.mem_cons_self), hcidr]
      exact .cons ⟨ip, len, hroute, rfl⟩ hrest

/-- The address of a line ends at the first blank. -/
theorem routeLine_ip {gateway ip ip' mask mask' : Text} (hip : ' ' ∉ ip) (hip' : ' ' ∉ ip')
    (h : routeLine gateway (ip ++ ("  " : Text) ++ mask) =
      routeLine gateway (ip' ++ ("  " : Text) ++ mask')) : ip = ip' := by
  have hgap : ("  " : Text) = [' ', ' '] := rfl
  have hline : ∀ route, routeLine gateway route =
      ("route " : Text) ++ route ++ (" " : Text) ++ gateway ++ ("\n" : Text) := fun _ => rfl
  simp only [hline, hgap, List.append_assoc, List.append_cancel_left_eq, List.cons_append] at h
  exact (split_at_first hip hip' h).1

/-- A word between blanks that has its line is a word between white space as well. -/
theorem words_of_lineOf {gateway : Text} {ts : List Text}
    (hts : ∀ t ∈ ts, t ≠ [] ∧ ∀ c ∈ t, blank c = false)
    (h : List.Forall₂ (LineOf gateway) (ts.flatMap (words isWhitespace))
      ((customRoutes ts).map (routeLine gateway))) :
    ∀ t ∈ ts, ∀ c ∈ t, isWhitespace c = false := by
  induction ts with
  | nil => exact fun t ht => nomatch ht
  | cons t ts ih =>
      obtain ⟨hne, hblank⟩ := hts t List.mem_cons_self
      have hspace : ' ' ∉ t := fun hmem => absurd (hblank ' ' hmem) (by decide)
      rw [customRoutes_cons hne] at h
      cases hcidr : cidrToIPAndNetmask t with
      | none =>
          -- without a line there is no word, and white space alone is a route
          rw [hcidr] at h
          have hnil : words isWhitespace t = [] := by
            have := List.forall₂_nil_right_iff.mp h
            exact (List.append_eq_nil_iff.mp this).1
          have hall : ∀ c ∈ t, isWhitespace c = true := by
            intro c hc
            by_contra hnot
            obtain ⟨w, hw, -⟩ := exists_word hc (Bool.eq_false_iff.mpr hnot)
            rw [hnil] at hw
            cases hw
          have hslash : '/' ∉ t := fun hmem => absurd (hall '/' hmem) (by decide)
          have hsome := cidrToIPAndNetmask_eq_some_iff.mpr
            ⟨t, 32, Or.inl ⟨hslash, rfl, rfl⟩, rfl⟩
          rw [hcidr] at hsome
          cases hsome
      | some cidr =>
          rw [hcidr] at h
          obtain ⟨ip, len, hroute, rfl⟩ := cidrToIPAndNetmask_eq_some_iff.mp hcidr
          obtain ⟨w, ws, ⟨ip', len', hroute', hline⟩, hrest, heq⟩ :=
            List.forall₂_cons_right_iff.mp h
          have hw : w ∈ (t :: ts).flatMap (words isWhitespace) := by
            rw [heq]
            exact List.mem_cons_self
          obtain ⟨t', -, hwt⟩ := List.mem_flatMap.mp hw
          have hclean : ∀ c ∈ ip', isWhitespace c = false :=
            fun c hc => (of_mem_words hwt).2 c (hroute'.subset hc)
          obtain rfl : ip = ip' :=
            routeLine_ip (fun hmem => hspace (hroute.subset hmem))
              (fun hmem => absurd (hclean ' ' hmem) (by decide)) hline
          have ht : ∀ c ∈ t, isWhitespace c = false := hroute.isWhitespace_of_ip hclean
          have hone : words isWhitespace t = [t] := words_of_none ht hne
          rw [List.flatMap_cons, hone, List.singleton_append] at heq
          obtain ⟨rfl, rfl⟩ := List.cons.inj heq
          intro t' ht' c hc
          rcases List.mem_cons.mp ht' with rfl | ht'
          · exact ht c hc
          · exact ih (fun t ht => hts t (List.mem_cons_of_mem _ ht)) hrest t' ht' c hc

theorem routeWords_eq {routes : Option Text}
    (hwhite : ∀ c ∈ routes.getD [], isWhitespace c = true → c = '\n' ∨ c = ' ' ∨ c = '\t') :
    routeWords routes = words blank (routes.getD []) := by
  apply words_congr
  intro c hc
  cases hb : blank c with
  | true => exact isWhitespace_of_blank c hb
  | false =>
      by_contra hnot
      rw [Bool.not_eq_false] at hnot
      rw [blank_iff.mpr (hwhite c hc hnot)] at hb
      cases hb

theorem lines_of_field_iff (gateway : Text) (routes : Option Text) :
    List.Forall₂ (LineOf gateway) (routeWords routes)
        ((getCustomRoutes routes).map (routeLine gateway)) ↔ Readable routes := by
  have hcut : routeWords routes = (words blank (routes.getD [])).flatMap (words isWhitespace) :=
    words_eq_flatMap isWhitespace_of_blank _
  rw [getCustomRoutes_eq]
  constructor
  · intro h
    refine ⟨?_, ?_⟩
    · intro c hc hwhite
      by_contra hnot
      have hblank : blank c = false := by
        rw [← Bool.not_eq_true, blank_iff]
        exact hnot
      obtain ⟨t, ht, hct⟩ := exists_word hc hblank
      rw [hcut] at h
      have := words_of_lineOf (fun t ht => of_mem_words ht) h t ht c hct
      rw [hwhite] at this
      cases this
    · have hroutes : List.Forall₂ (fun word line =>
          (∃ ip len, IsRoute word ip len) ∧ LineOf gateway word line) (routeWords routes)
          ((customRoutes (words blank (routes.getD []))).map (routeLine gateway)) := by
        apply h.imp
        rintro word line ⟨ip, len, hroute, hline⟩
        exact ⟨⟨ip, len, hroute⟩, ip, len, hroute, hline⟩
      exact ((List.forall₂_and_left _ _).mp hroutes).1
  · rintro ⟨hwhite, hroutes⟩
    rw [← routeWords_eq hwhite]
    exact forall₂_lineOf (fun w hw => (of_mem_words hw).1) hroutes

/-! ### The two fields -/

theorem not_vpn_gateway (route : Text) :
    ¬("vpn_gateway\n" : Text) <:+ routeLine "net_gateway" route := by
  intro h
  have hnet : ("net_gateway\n" : Text) <:+ routeLine "net_gateway" route :=
    ⟨("route " : Text) ++ route ++ (" " : Text), by
      rw [show ("net_gateway\n" : Text) = ("net_gateway" : Text) ++ ("\n" : Text) from rfl,
        ← List.append_assoc]
      rfl⟩
  have hsuffix := List.suffix_of_suffix_length_le h hnet (by decide)
  exact absurd (hsuffix.eq_of_length (by decide)) (by decide)

theorem vpn_gateway (route : Text) :
    ("vpn_gateway\n" : Text) <:+ routeLine "vpn_gateway" route :=
  ⟨("route " : Text) ++ route ++ (" " : Text), by
    rw [show ("vpn_gateway\n" : Text) = ("vpn_gateway" : Text) ++ ("\n" : Text) from rfl,
      ← List.append_assoc]
    rfl⟩

theorem mem_of_forall₂_lineOf {gateway : Text} {ws lines : List Text}
    (h : List.Forall₂ (LineOf gateway) ws lines) {line : Text} (hline : line ∈ lines) :
    ∃ route, line = routeLine gateway route := by
  induction h with
  | nil => cases hline
  | cons hfirst _ ih =>
      rcases List.mem_cons.mp hline with rfl | hline
      · obtain ⟨ip, len, -, rfl⟩ := hfirst
        exact ⟨_, rfl⟩
      · exact ih hline

/-- The last word of a line says which field it is from. -/
theorem routesKept_iff_readable {p : VpnProfile} (hdefault : p.mUseDefaultRoute = false) :
    p.RoutesKept ↔ Readable p.mCustomRoutes ∧ Readable p.mExcludedRoutes := by
  rw [← lines_of_field_iff "vpn_gateway", ← lines_of_field_iff "net_gateway"]
  have hroutes : p.routes = (getCustomRoutes p.mCustomRoutes).map (routeLine "vpn_gateway")
      ++ (getCustomRoutes p.mExcludedRoutes).map (routeLine "net_gateway") := by
    rw [routes, hdefault]
    rfl
  constructor
  · rintro ⟨vpn, net, heq, hvpn, hnet⟩
    rw [hroutes] at heq
    obtain ⟨rfl, rfl⟩ := append_inj_of_forall (P := fun line => ("vpn_gateway\n" : Text) <:+ line)
      heq
      (fun line hline => by
        obtain ⟨route, -, rfl⟩ := List.mem_map.mp hline
        exact vpn_gateway route)
      (fun line hline => by
        obtain ⟨route, -, rfl⟩ := List.mem_map.mp hline
        exact not_vpn_gateway route)
      (fun line hline => by
        obtain ⟨route, rfl⟩ := mem_of_forall₂_lineOf hvpn hline
        exact vpn_gateway route)
      (fun line hline => by
        obtain ⟨route, rfl⟩ := mem_of_forall₂_lineOf hnet hline
        exact not_vpn_gateway route)
    exact ⟨hvpn, hnet⟩
  · rintro ⟨hvpn, hnet⟩
    exact ⟨_, _, hroutes, hvpn, hnet⟩

/-- The words are separated by blanks, tabs and line feeds, and each after the first is a
    route. -/
def RestReadable (routes : Option Text) : Prop :=
  (∀ c ∈ routes.getD [], isWhitespace c = true → c = '\n' ∨ c = ' ' ∨ c = '\t') ∧
    ∀ word ∈ (routeWords routes).tail, ∃ ip len, IsRoute word ip len

/-- A field that the check lets pass. -/
def Checked (routes : Option Text) : Prop :=
  isEmptyText routes = true ∨ getCustomRoutes routes ≠ []

/-- The check has looked at the first word. -/
theorem readable_iff_rest {routes : Option Text} (h : Checked routes) :
    Readable routes ↔ RestReadable routes := by
  refine and_congr_right fun hwhite => ?_
  have hwords := routeWords_eq hwhite
  constructor
  · exact fun hall word hword => hall word (List.mem_of_mem_tail hword)
  · intro hrest word hword
    cases hlist : words blank (routes.getD []) with
    | nil =>
        rw [hwords, hlist] at hword
        cases hword
    | cons first rest =>
        rw [hwords, hlist] at hword hrest
        rcases List.mem_cons.mp hword with rfl | hword
        · have hne : word ≠ [] := (of_mem_words (hlist ▸ List.mem_cons_self)).1
          rcases h with hempty | hsome
          · rw [isEmptyText, List.isEmpty_iff] at hempty
            rw [hempty, words_nil] at hlist
            cases hlist
          · rw [getCustomRoutes_eq, hlist, customRoutes_cons hne] at hsome
            cases hcidr : cidrToIPAndNetmask word with
            | none =>
                rw [hcidr] at hsome
                exact absurd rfl hsome
            | some cidr =>
                obtain ⟨ip, len, hroute, -⟩ := cidrToIPAndNetmask_eq_some_iff.mp hcidr
                exact ⟨ip, len, hroute⟩
        · exact hrest word hword

end VpnProfile

namespace Settings

open VpnProfile

theorem checkProfile_eq_none {env : CheckEnvironment} {s : Settings}
    (haccepted : s.checkProfile env = none) : s.checkRoutes = none ∧ s.checkCipher = none := by
  simp only [checkProfile, Option.orElse_eq_orElse, Option.orElse_eq_or, Option.or_eq_none_iff]
    at haccepted
  obtain ⟨-, -, -, hroutes, -, -, -, -, -, hcipher⟩ := haccepted
  exact ⟨hroutes, hcipher⟩

theorem checked_of_checkProfile {env : CheckEnvironment} {s : Settings}
    (haccepted : s.checkProfile env = none) (hdefault : s.profile.mUseDefaultRoute = false) :
    Checked s.profile.mCustomRoutes ∧ Checked s.profile.mExcludedRoutes := by
  have hfield : ∀ routes, (isEmptyText routes = false → getCustomRoutes routes ≠ []) →
      Checked routes := by
    intro routes h
    cases hempty : isEmptyText routes with
    | true => exact Or.inl hempty
    | false => exact Or.inr (h hempty)
  have hroutes := (checkProfile_eq_none haccepted).1
  simp [checkRoutes, hdefault] at hroutes
  exact ⟨hfield _ hroutes.1, hfield _ hroutes.2⟩

/-- The lines of an accepted profile are complete exactly when no word after the first
    one of a field fails to be a route, and when white space is blanks, tabs and line
    feeds. -/
theorem routesKept_iff (env : CheckEnvironment) (s : Settings)
    (haccepted : s.checkProfile env = none) (hdefault : s.profile.mUseDefaultRoute = false) :
    s.profile.RoutesKept ↔
      RestReadable s.profile.mCustomRoutes ∧ RestReadable s.profile.mExcludedRoutes := by
  obtain ⟨hcustom, hexcluded⟩ := checked_of_checkProfile haccepted hdefault
  rw [routesKept_iff_readable hdefault, readable_iff_rest hcustom, readable_iff_rest hexcluded]

/-- A profile with four routes, one of them excluded. -/
theorem routesKept_iff_home :
    let s : Settings := { profile := {
      mName := "home"
      mAuthenticationType := .userpass
      mUseDefaultRoute := false
      mCustomRoutes := some "10.0.0.0/8 172.16.0.0/12\n192.168.1.1"
      mExcludedRoutes := some "192.168.2.0/24" } }
    s.profile.RoutesKept ↔
      RestReadable s.profile.mCustomRoutes ∧ RestReadable s.profile.mExcludedRoutes := by
  intro s
  exact routesKept_iff ⟨false, false, fun _ => none⟩ s (by decide +kernel) rfl

/-- The second route has a length that is out of range: the third one is lost. -/
theorem not_routesKept :
    let s : Settings := { profile := {
      mName := "home"
      mAuthenticationType := .userpass
      mUseDefaultRoute := false
      mCustomRoutes := some "10.0.0.0/8 172.16.0.0/33 192.168.0.0/16" } }
    s.checkProfile ⟨false, false, fun _ => none⟩ = none ∧ s.profile.mUseDefaultRoute = false ∧
      ¬s.profile.RoutesKept := by
  intro s
  refine ⟨by decide +kernel, rfl, ?_⟩
  rintro ⟨vpn, net, heq, hvpn, -⟩
  have hroutes : s.profile.routes.length = 1 := by decide +kernel
  have hwords : (routeWords s.profile.mCustomRoutes).length = 3 := by decide +kernel
  have hvpn : (routeWords s.profile.mCustomRoutes).length = vpn.length := hvpn.length_eq
  rw [heq, List.length_append] at hroutes
  omega

end Settings

/-! ### Ciphers -/

namespace VpnProfile

/-- A line of `getConfigFile` about ciphers. -/
inductive CipherLine where
  | data_ciphers (list : Text)
  | compat_mode (major minor patch : Int)
  | cipher (name : Text)
deriving DecidableEq, Repr

/-- The lines in the order of the source. -/
def cipherLines (p : VpnProfile) : List CipherLine :=
  (if p.mDataCiphers.isEmpty then [] else [.data_ciphers p.mDataCiphers])
    ++ (if p.mCompatMode > 0 then
        [.compat_mode (p.mCompatMode.tdiv 10000) ((p.mCompatMode.tmod 10000).tdiv 100)
          (p.mCompatMode.tmod 100)]
      else [])
    ++ (if p.mCipher.isEmpty then [] else [.cipher p.mCipher])

/-- `BF-CBC` in any letter case. -/
def IsBfCbc (cipher : Text) : Prop := cipher.map Char.toUpper = "BF-CBC"

instance : DecidablePred IsBfCbc := fun cipher =>
  inferInstanceAs (Decidable (cipher.map Char.toUpper = ("BF-CBC" : Text)))

/-- An entry of a list names `BF-CBC`; a question mark says that it is optional. -/
def ListsBfCbc (list : Text) : Prop :=
  ∃ entry ∈ pieces (· == ':') list, IsBfCbc entry ∨ ∃ name, entry = '?' :: name ∧ IsBfCbc name

/-- The cipher that counts, which is `BF-CBC` without a line for it. -/
def EffectiveCipher (lines : List CipherLine) (name : Text) : Prop :=
  .cipher name ∈ lines ∨ name = "BF-CBC" ∧ ∀ other, .cipher other ∉ lines

/-- A version before 2.5.0. -/
def Before250 (major minor : Int) : Prop := major < 2 ∨ major = 2 ∧ minor < 5

/-- OpenVPN gets along without `BF-CBC`. -/
structure CiphersSound (lines : List CipherLine) : Prop where
  data_ciphers : ∀ list, .data_ciphers list ∈ lines → ¬ListsBfCbc list
  compat_mode : ∀ major minor patch name, .compat_mode major minor patch ∈ lines →
    Before250 major minor → EffectiveCipher lines name → ¬IsBfCbc name

/-- The number of a version. -/
theorem before250_iff {m : Int} (hm : 0 < m) :
    Before250 (m.tdiv 10000) ((m.tmod 10000).tdiv 100) ↔ m < 20500 := by
  have hmod : 0 ≤ m.tmod 10000 := Int.tmod_nonneg _ (Int.le_of_lt hm)
  rw [Before250, Int.tdiv_eq_ediv_of_nonneg (Int.le_of_lt hm), Int.tdiv_eq_ediv_of_nonneg hmod,
    Int.tmod_eq_emod_of_nonneg (Int.le_of_lt hm)]
  omega

theorem mem_data_ciphers {p : VpnProfile} {list : Text} :
    .data_ciphers list ∈ p.cipherLines ↔ p.mDataCiphers ≠ [] ∧ list = p.mDataCiphers := by
  rw [cipherLines]
  split_ifs <;> simp_all

theorem mem_compat_mode {p : VpnProfile} {major minor patch : Int} :
    .compat_mode major minor patch ∈ p.cipherLines ↔
      0 < p.mCompatMode ∧ major = p.mCompatMode.tdiv 10000 ∧
        minor = (p.mCompatMode.tmod 10000).tdiv 100 ∧ patch = p.mCompatMode.tmod 100 := by
  rw [cipherLines]
  by_cases hpos : p.mCompatMode > 0
  · rw [if_pos hpos, and_iff_right hpos]
    split_ifs <;> simp
  · rw [if_neg hpos]
    refine iff_of_false ?_ fun h => hpos h.1
    split_ifs <;> simp

theorem mem_cipher {p : VpnProfile} {name : Text} :
    .cipher name ∈ p.cipherLines ↔ p.mCipher ≠ [] ∧ name = p.mCipher := by
  rw [cipherLines]
  split_ifs <;> simp_all

/-- An empty list has no entry that counts. -/
theorem not_listsBfCbc_nil : ¬ListsBfCbc [] := by
  rintro ⟨entry, hentry, h⟩
  obtain rfl : entry = [] := by simpa [pieces] using hentry
  rcases h with h | ⟨name, hname, -⟩
  · exact absurd h (by decide)
  · cases hname

/-- The cipher that counts is the one that the check looks at. -/
theorem isBfCbc_iff {p : VpnProfile} {name : Text} (h : EffectiveCipher p.cipherLines name) :
    IsBfCbc name ↔
      (if p.mCipher.isEmpty then ("BF-CBC" : Text) else p.mCipher.map Char.toUpper) = "BF-CBC" := by
  rcases h with hmem | ⟨rfl, hnone⟩
  · obtain ⟨hne, rfl⟩ := mem_cipher.mp hmem
    rw [if_neg (by simpa using hne), IsBfCbc]
  · have hempty : p.mCipher = [] := by
      by_contra hne
      exact hnone _ (mem_cipher.mpr ⟨hne, rfl⟩)
    rw [hempty]
    exact iff_of_true (by decide) rfl

end VpnProfile

namespace Settings

open VpnProfile

/-- The half that the check sees to. -/
theorem compat_mode_of_checkCipher {s : Settings} (hcheck : s.checkCipher = none)
    (hlegacy : s.profile.mUseLegacyProvider = false) {major minor patch : Int} {name : Text}
    (hmem : .compat_mode major minor patch ∈ s.profile.cipherLines)
    (hbefore : Before250 major minor) (heffective : EffectiveCipher s.profile.cipherLines name) :
    ¬IsBfCbc name := by
  obtain ⟨hpos, rfl, rfl, -⟩ := mem_compat_mode.mp hmem
  have hlt : s.profile.mCompatMode < 20500 := (before250_iff hpos).mp hbefore
  rw [isBfCbc_iff heffective]
  intro hcipher
  rw [checkCipher] at hcheck
  simp only [hlegacy, hpos, hlt, hcipher] at hcheck
  cases hcheck

end Settings

end OpenVpnAndroid
