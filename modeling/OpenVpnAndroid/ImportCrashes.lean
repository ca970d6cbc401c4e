/-
  OpenVpnAndroid/ImportCrashes.lean
  =================================
  **Which texts make the import stop with an exception that it does not declare,
  or never stop.**

  Five paragraphs parse an argument without catching what the parsing throws, or
  count wrongly (`Section.Crashes`): `route` and `ifconfig` with a netmask that
  `calculateLenFromMask` loops on, `ifconfig` with a short netmask, `compat-mode`,
  `auth-retry`, and a `connection` line that is no block.  The import fails cleanly
  exactly when it reaches no paragraph that crashes.
-/
import OpenVpnAndroid.ImportErrors

namespace OpenVpnAndroid

open Commands

open OptionMap (Listed)

namespace ConfigParser

/-! ### Netmasks -/

/-- The netmask becomes 0 with the bit that `calculateLenFromMask` adds, so that its
    loop never ends. -/
def MaskLoops (mask : Text) : Prop := ∃ n, CIDRIP.getInt mask = .ok n ∧ long (n + 2 ^ 32) = 0

/-- How `CIDRIP.getInt` parses a part. -/
def partParser : Nat → Text → Option Int
  | 0 => parseLong
  | _ + 1 => parseInt

/-- The first parts of the netmask can be parsed. -/
def PartsParse (mask : Text) (count : Nat) : Prop :=
  ∀ i part, i < count → (split (· == '.') mask)[i]? = some part → (partParser i part).isSome

/-- The netmask has less than four parts, and all of them can be parsed. -/
def ShortMask (mask : Text) : Prop :=
  (split (· == '.') mask).length < 4 ∧ PartsParse mask 4

end ConfigParser

namespace CIDRIP

open ConfigParser

theorem shiftZeros_eq_none {rounds : Nat} {netmask : Int} {lenZeros : Nat} :
    shiftZeros rounds netmask lenZeros = none ↔ (2 ^ rounds : Int) ∣ netmask := by
  induction rounds generalizing netmask lenZeros with
  | zero => simp [shiftZeros]
  | succ rounds ih =>
      rw [shiftZeros, Int.pow_succ, Int.mul_comm]
      split
      · rename_i heven
        rw [ih]
        obtain ⟨half, rfl⟩ := Int.dvd_of_emod_eq_zero heven
        rw [Int.mul_ediv_cancel_left _ (by decide)]
        exact (Int.mul_dvd_mul_iff_left (by decide)).symm
      · rename_i hodd
        simp only [reduceCtorEq, false_iff]
        intro hdvd
        exact hodd (Int.emod_eq_zero_of_dvd (Int.dvd_trans (Int.dvd_mul_right _ _) hdvd))

theorem two_pow_dvd_long (n : Int) : (2 ^ 64 : Int) ∣ long n ↔ long n = 0 := by
  have hlo : -2 ^ 63 ≤ long n := Int.le_bmod (by decide)
  have hhi : long n < 2 ^ 63 := Int.bmod_lt (by decide)
  constructor
  · rintro ⟨k, hk⟩
    omega
  · intro h
    rw [h]
    exact Int.dvd_zero _

/-- The netmask runs into the endless loop, or its length is computed. -/
theorem calculateLenFromMask_of_getInt {mask : Text} {n : Int} (h : getInt mask = .ok n) :
    (MaskLoops mask ∧ calculateLenFromMask mask = .error .loops) ∨
      (¬MaskLoops mask ∧ ∃ len, calculateLenFromMask mask = .ok len) := by
  have hloops : MaskLoops mask ↔ long (n + 2 ^ 32) = 0 := by
    constructor
    · rintro ⟨n', hn', hzero⟩
      cases h.symm.trans hn'
      exact hzero
    · intro hzero
      exact ⟨n, h, hzero⟩
  rw [calculateLenFromMask_eq h]
  cases hshift : shiftZeros 64 (long (n + 2 ^ 32)) 0 with
  | none =>
      left
      refine ⟨hloops.mpr ?_, rfl⟩
      exact (two_pow_dvd_long _).mp (shiftZeros_eq_none.mp hshift)
  | some r =>
      right
      refine ⟨fun hmask => ?_, ?_⟩
      · rw [shiftZeros_eq_none.mpr ((two_pow_dvd_long _).mpr (hloops.mp hmask))] at hshift
        cases hshift
      · dsimp only
        split
        · exact ⟨_, rfl⟩
        · exact ⟨_, rfl⟩

theorem part_cases (parse : Text → Option Int) (ipt : List Text) (i : Nat) :
    (∃ s n, ipt[i]? = some s ∧ parse s = some n ∧ part parse ipt i = .ok n) ∨
      (∃ s, ipt[i]? = some s ∧ parse s = none ∧
        part parse ipt i = .error (.thrown (.numberFormat s))) ∨
      (ipt.length ≤ i ∧ part parse ipt i = .error (.thrown .arrayIndexOutOfBounds)) := by
  cases hget : ipt[i]? with
  | none =>
      right; right
      refine ⟨List.getElem?_eq_none_iff.mp hget, ?_⟩
      simp only [part, vectorGet, hget]
      rfl
  | some s =>
      cases hparse : parse s with
      | none =>
          right; left
          refine ⟨s, rfl, hparse, ?_⟩
          rw [part, vectorGet_of_getElem? hget, ok_bind, hparse]
          rfl
      | some n =>
          left
          refine ⟨s, n, rfl, hparse, ?_⟩
          rw [part, vectorGet_of_getElem? hget, ok_bind, hparse]
          rfl

/-- What `getInt` comes to. -/
def Classified (mask : Text) (x : Java Int) : Prop :=
  (¬ShortMask mask ∧ ∃ n, x = .ok n) ∨
    (¬ShortMask mask ∧ ∃ s, x = .error (.thrown (.numberFormat s))) ∨
    (ShortMask mask ∧ x = .error (.thrown .arrayIndexOutOfBounds))

theorem classified_bind {mask : Text} {i : Nat} (hi : i < 4) (hbefore : PartsParse mask i)
    {code : Int → Java Int}
    (hcode : i < (split (· == '.') mask).length → PartsParse mask (i + 1) →
      ∀ n, Classified mask (code n)) :
    Classified mask (part (partParser i) (split (· == '.') mask) i >>= code) := by
  rcases part_cases (partParser i) (split (· == '.') mask) i with
    ⟨s, n, hs, hn, hrun⟩ | ⟨s, hs, hn, hrun⟩ | ⟨hlen, hrun⟩
  · rw [hrun]
    refine hcode (List.getElem?_eq_some_iff.mp hs).1 (fun j t hj ht => ?_) n
    rcases Nat.lt_succ_iff_lt_or_eq.mp hj with hj | rfl
    · exact hbefore j t hj ht
    · rw [Option.some.inj (ht.symm.trans hs), hn]
      rfl
  · rw [hrun]
    refine .inr (.inl ⟨fun hshort => ?_, s, rfl⟩)
    have := hshort.2 i s hi hs
    rw [hn] at this
    cases this
  · rw [hrun]
    refine .inr (.inr ⟨⟨by omega, fun j t hj ht => ?_⟩, rfl⟩)
    have hj : j < (split (· == '.') mask).length := (List.getElem?_eq_some_iff.mp ht).1
    exact hbefore j t (by omega) ht

/-- `getInt` stops at the first part that is missing or no number. -/
theorem classified_getInt (mask : Text) : Classified mask (getInt mask) := by
  refine classified_bind (i := 0) (by decide) (fun j t hj => by omega) fun _ h a => ?_
  refine classified_bind (i := 1) (by decide) h fun _ h b => ?_
  refine classified_bind (i := 2) (by decide) h fun _ h c => ?_
  refine classified_bind (i := 3) (by decide) h fun hlen _ d => ?_
  exact .inl ⟨fun hshort => by have := hshort.1; omega, _, rfl⟩

end CIDRIP

namespace ConfigParser

/-! ### The paragraphs that can crash -/

/-- The look-up finds the option, and `arg` is an argument of its last line. -/
def LastArg (options : OptionMap) (option : Text) (minarg maxarg i : Nat) (arg : Text) : Prop :=
  ∃ lines last, Found options option minarg maxarg lines ∧ lines.getLast? = some last ∧
    last[i]? = some arg

/-- The netmask of a route. -/
def routeNetmask (route : List Text) : Text := (route[2]?).getD "255.255.255.255"

/-- The first route with a netmask that does not become a prefix length has one that
    `calculateLenFromMask` loops on. -/
def RoutesLoop : List (List Text) → Prop
  | [] => False
  | route :: routes =>
      MaskLoops (routeNetmask route) ∨
        (∃ n, CIDRIP.getInt (routeNetmask route) = .ok n) ∧ RoutesLoop routes

/-- A version of three numbers with dots between them. -/
def ThreeNumbers (env : JavaEnv) (version : Text) : Prop :=
  ∃ major minor patch rest,
    pieces (· == '.') (skipDelimiter version) = major :: minor :: patch :: rest ∧
      (env.nextInt major).isSome ∧ (env.nextInt minor).isSome ∧ (env.nextInt patch).isSome

/-- The first block that is not accepted is too short to be one. -/
def BlocksCrash (env : JavaEnv) (connDefault : Connection) (blocks : List (List Text)) : Prop :=
  ∃ before conn after text, blocks = before ++ conn :: after ∧
    (∀ b ∈ before, ∃ c, connectionBlock env connDefault b = .ok c) ∧
    conn[1]? = some text ∧ text.length < VpnProfile.INLINE_TAG.length

/-- The import before a paragraph that throws what nobody declares, or that never ends. -/
def Section.Crashes (env : JavaEnv) (s : Import) : Section → Prop
  | .route => ∃ routes, Found s.options "route" 1 4 routes ∧ RoutesLoop routes
  | .ifconfig =>
      ∃ mask, LastArg s.options "ifconfig" 2 2 2 mask ∧ (ShortMask mask ∨ MaskLoops mask)
  | .compatMode =>
      ∃ version, LastArg s.options "compat-mode" 1 1 1 version ∧ ¬ThreeNumbers env version
  | .authRetry =>
      ∃ type, LastArg s.options "auth-retry" 1 1 1 type ∧ authRetryType type = none
  | .connections =>
      ∃ connDefault options blocks,
        parseConnectionOptions env none s.options = .ok ((connDefault, []), options) ∧
          Found options "connection" 1 1 blocks ∧ BlocksCrash env connDefault blocks
  | _ => False

/-- From `s`, the code stops only with a declared exception. -/
def ClearsFrom (code : Import.Code Unit) (s : Import) : Prop :=
  Clean (fun r => True ∧ Listed r.2.options) (code s)

section When

variable {s : Import} {option : Text} {minarg maxarg : Nat}

theorem whenAllOption_clearsFrom (hs : Listed s.options)
    {code : List (List Text) → Import.Code Unit} :
    ClearsFrom (whenAllOption option minarg maxarg code) s ↔
      ∀ lines, Found s.options option minarg maxarg lines →
        ClearsFrom (code lines) { s with options := OptionMap.remove s.options option } := by
  rcases found_cases s.options option minarg maxarg with hget | ⟨lines, hfound⟩ | ⟨hnone, _, hbad⟩
  · rw [ClearsFrom, whenAllOption_of_none hget]
    refine ⟨fun _ lines hlines => ?_, fun _ => ⟨True.intro, hs⟩⟩
    cases hlines.1.symm.trans hget
  · rw [ClearsFrom, whenAllOption_of_found hfound]
    refine ⟨fun h lines' hlines' => ?_, fun h => h lines hfound⟩
    rw [hlines'.unique hfound]
    exact h
  · rw [ClearsFrom, whenAllOption, bind_error (lookup_error hbad)]
    exact ⟨fun _ lines hlines => absurd hlines (hnone lines), fun _ => rfl⟩

theorem whenOption_clearsFrom (hs : Listed s.options) {code : List Text → Import.Code Unit} :
    ClearsFrom (whenOption option minarg maxarg code) s ↔
      ∀ lines line, Found s.options option minarg maxarg lines → lines.getLast? = some line →
        ClearsFrom (code line) { s with options := OptionMap.remove s.options option } := by
  rcases found_cases s.options option minarg maxarg with hget | ⟨lines, hfound⟩ | ⟨hnone, _, hbad⟩
  · rw [ClearsFrom, whenOption_of_none hget]
    refine ⟨fun _ lines _ hlines => ?_, fun _ => ⟨True.intro, hs⟩⟩
    cases hlines.1.symm.trans hget
  · obtain ⟨line, hline⟩ : ∃ line, lines.getLast? = some line :=
      ⟨_, List.getLast?_eq_getLast_of_ne_nil (hs.get hfound.1)⟩
    rw [ClearsFrom, whenOption_of_found hfound hline]
    refine ⟨fun h lines' line' hlines' hline' => ?_, fun h => h lines line hfound hline⟩
    rw [hlines'.unique hfound, hline] at hline'
    rw [← Option.some.inj hline']
    exact h
  · have hrun : getOption option minarg maxarg s.options = _ := bind_error hbad
    rw [ClearsFrom, whenOption, bind_error (lookup_error hrun)]
    exact ⟨fun _ lines _ hlines => absurd hlines (hnone lines), fun _ => rfl⟩

/-- A paragraph that is clean unless an argument of the last line is rejected. -/
theorem whenOption_clearsFrom_arg (hs : Listed s.options) {i : Nat} (hi : i ≤ minarg)
    {code : List Text → Import.Code Unit} {Rejected : Text → Prop}
    (hcode : ∀ line arg t, Counted minarg maxarg line → (line : List Text)[i]? = some arg →
      Listed (Import.options t) → (ClearsFrom (code line) t ↔ ¬Rejected arg)) :
    ClearsFrom (whenOption option minarg maxarg code) s ↔
      ¬∃ arg, LastArg s.options option minarg maxarg i arg ∧ Rejected arg := by
  rw [whenOption_clearsFrom hs]
  constructor
  · rintro h ⟨arg, ⟨lines, line, hfound, hline, harg⟩, hbad⟩
    have hcount := hfound.2 line (List.mem_of_getLast? hline)
    exact (hcode line arg _ hcount harg (hs.remove option)).mp (h lines line hfound hline) hbad
  · intro h lines line hfound hline
    have hcount := hfound.2 line (List.mem_of_getLast? hline)
    have harg := List.getElem?_eq_getElem (hcount.lt hi)
    refine (hcode line _ _ hcount harg (hs.remove option)).mpr fun hbad => ?_
    exact h ⟨_, ⟨lines, line, hfound, hline, harg⟩, hbad⟩

theorem clearsFrom_modifyProfile {x : Java α} {f : α → VpnProfile → VpnProfile}
    (hs : Listed s.options) :
    ClearsFrom ((liftM x : Import.Code α) >>= fun a => modifyProfile (f a)) s ↔
      Clean (fun _ => True) x := by
  cases x with
  | error e => exact Iff.rfl
  | ok a => exact ⟨fun _ => True.intro, fun _ => ⟨True.intro, hs⟩⟩

theorem clearsFrom_vectorGet {args : List Text} {i : Nat} {arg : Text} (h : args[i]? = some arg)
    {code : Text → Import.Code Unit} :
    ClearsFrom ((liftM (vectorGet args i) : Import.Code Text) >>= code) s ↔
      ClearsFrom (code arg) s := by
  rw [ClearsFrom, bind_ok (lift_ok (vectorGet_of_getElem? h))]
  exact Iff.rfl

end When

/-! ### Routes and the interface address -/

theorem not_declared_loops : ¬Declared .loops := Bool.false_ne_true

theorem not_declared_arrayIndexOutOfBounds : ¬Declared (.thrown .arrayIndexOutOfBounds) :=
  Bool.false_ne_true

/-- What `new CIDRIP(ip, netmask)` comes to. -/
theorem ofMask_cases (ip mask : Text) :
    (∃ n, CIDRIP.getInt mask = .ok n ∧ ¬MaskLoops mask ∧ ¬ShortMask mask ∧
        ∃ cidr, CIDRIP.ofMask ip mask = .ok cidr) ∨
      (MaskLoops mask ∧ CIDRIP.ofMask ip mask = .error .loops) ∨
      ((∀ n, CIDRIP.getInt mask ≠ .ok n) ∧ ¬ShortMask mask ∧
        ∃ s, CIDRIP.ofMask ip mask = .error (.thrown (.numberFormat s))) ∨
      ((∀ n, CIDRIP.getInt mask ≠ .ok n) ∧ ShortMask mask ∧
        CIDRIP.ofMask ip mask = .error (.thrown .arrayIndexOutOfBounds)) := by
  rcases CIDRIP.classified_getInt mask with ⟨hshort, n, hn⟩ | ⟨hshort, s, hs⟩ | ⟨hshort, hs⟩
  · rcases CIDRIP.calculateLenFromMask_of_getInt hn with ⟨hloops, hrun⟩ | ⟨hloops, len, hrun⟩
    · refine .inr (.inl ⟨hloops, ?_⟩)
      rw [CIDRIP.ofMask, hrun]
      rfl
    · refine .inl ⟨n, hn, hloops, hshort, ⟨ip, len⟩, ?_⟩
      rw [CIDRIP.ofMask, hrun]
      rfl
  · refine .inr (.inr (.inl ⟨fun n hn => ?_, hshort, s, ?_⟩))
    · cases hs.symm.trans hn
    · rw [CIDRIP.ofMask, CIDRIP.calculateLenFromMask, hs]
      rfl
  · refine .inr (.inr (.inr ⟨fun n hn => ?_, hshort, ?_⟩))
    · cases hs.symm.trans hn
    · rw [CIDRIP.ofMask, CIDRIP.calculateLenFromMask, hs]
      rfl

theorem convertRoutes_clean {routes : List (List Text)} (h : ∀ r ∈ routes, Counted 1 4 r)
    (routeopt routeExcluded : Text) :
    Clean (fun _ => True) (convertRoutes routes routeopt routeExcluded) ↔ ¬RoutesLoop routes := by
  induction routes generalizing routeopt routeExcluded with
  | nil => exact ⟨fun _ hloop => hloop, fun _ => True.intro⟩
  | cons route routes ih =>
      have hnet := List.getElem?_eq_getElem ((h route List.mem_cons_self).lt (by decide : 1 ≤ 1))
      rw [convertRoutes, defaultArg_eq, defaultArg_eq, vectorGet_of_getElem? hnet]
      simp only [ok_bind]
      change Clean _ (routeCidr _ (routeNetmask route) >>= _) ↔ _
      rcases ofMask_cases _ (routeNetmask route) with
        ⟨n, hn, hloops, -, cidr, hcidr⟩ | ⟨hloops, hcidr⟩ | ⟨hn, -, s, hcidr⟩ | ⟨hn, -, hcidr⟩
      · have hrest : RoutesLoop (route :: routes) ↔ RoutesLoop routes :=
          ⟨fun hl => hl.elim (absurd · hloops) And.right, fun hl => .inr ⟨⟨n, hn⟩, hl⟩⟩
        rw [routeCidr, hcidr, hrest]
        simp only [ok_bind]
        split
        · exact ih (fun r hr => h r (List.mem_cons_of_mem _ hr)) _ _
        · exact ih (fun r hr => h r (List.mem_cons_of_mem _ hr)) _ _
      · rw [routeCidr, hcidr]
        exact ⟨fun hbad => absurd hbad not_declared_loops, fun hnot => absurd (.inl hloops) hnot⟩
      · rw [routeCidr, hcidr]
        refine ⟨fun _ hl => ?_, fun _ => rfl⟩
        rcases hl with ⟨n, hok, -⟩ | ⟨⟨n, hok⟩, -⟩
        · exact hn n hok
        · exact hn n hok
      · rw [routeCidr, hcidr]
        refine ⟨fun _ hl => ?_, fun _ => rfl⟩
        rcases hl with ⟨n, hok, -⟩ | ⟨⟨n, hok⟩, -⟩
        · exact hn n hok
        · exact hn n hok

theorem route_clearsFrom {s : Import} (hs : Listed s.options) :
    ClearsFrom route s ↔
      ¬∃ routes, Found s.options "route" 1 4 routes ∧ RoutesLoop routes := by
  rw [route, whenAllOption_clearsFrom hs]
  have hrun : ∀ routes t, (∀ r ∈ routes, Counted 1 4 r) → Listed (Import.options t) →
      (ClearsFrom (liftM (convertRoutes routes [] []) >>= fun converted => modifyProfile fun np =>
          { np with
            mCustomRoutes := some converted.1
            mExcludedRoutes := some converted.2 }) t ↔
        ¬RoutesLoop routes) :=
    fun routes t hcount ht => (clearsFrom_modifyProfile ht).trans (convertRoutes_clean hcount [] [])
  constructor
  · rintro h ⟨routes, hfound, hloop⟩
    exact (hrun routes _ hfound.2 (hs.remove _)).mp (h routes hfound) hloop
  · intro h routes hfound
    exact (hrun routes _ hfound.2 (hs.remove _)).mpr fun hloop => h ⟨routes, hfound, hloop⟩

theorem ifconfigCidr_clean (env : JavaEnv) (address mask : Text) :
    Clean (fun _ => True) (ifconfigCidr env address mask) ↔ ¬(ShortMask mask ∨ MaskLoops mask) := by
  rcases ofMask_cases address mask with
    ⟨n, hn, hloops, hshort, cidr, hcidr⟩ | ⟨hloops, hcidr⟩ | ⟨hn, hshort, s, hcidr⟩ | ⟨hn, hshort, hcidr⟩
  all_goals rw [ifconfigCidr, hcidr]
  · exact ⟨fun _ hbad => hbad.elim hshort hloops, fun _ => True.intro⟩
  · exact ⟨fun hbad => absurd hbad not_declared_loops, fun hnot => absurd (.inr hloops) hnot⟩
  · refine ⟨fun _ hbad => ?_, fun _ => rfl⟩
    rcases hbad with hbad | ⟨n, hok, -⟩
    · exact hshort hbad
    · exact hn n hok
  · exact ⟨fun hbad => absurd hbad not_declared_arrayIndexOutOfBounds,
      fun hnot => absurd (.inl hshort) hnot⟩

theorem ifconfig_clearsFrom (env : JavaEnv) {s : Import} (hs : Listed s.options) :
    ClearsFrom (ifconfig env) s ↔
      ¬∃ mask, LastArg s.options "ifconfig" 2 2 2 mask ∧ (ShortMask mask ∨ MaskLoops mask) := by
  refine whenOption_clearsFrom_arg hs (by decide) fun line mask t hcount hmask ht => ?_
  have haddress := List.getElem?_eq_getElem (hcount.lt (by decide : 1 ≤ 2))
  rw [clearsFrom_vectorGet haddress, clearsFrom_vectorGet hmask, clearsFrom_modifyProfile ht]
  exact ifconfigCidr_clean env _ mask

/-! ### Versions and `auth-retry` -/

theorem authRetry_clearsFrom {s : Import} (hs : Listed s.options) :
    ClearsFrom authRetry s ↔
      ¬∃ type, LastArg s.options "auth-retry" 1 1 1 type ∧ authRetryType type = none := by
  refine whenOption_clearsFrom_arg hs (by decide) fun line type t hcount htype ht => ?_
  rw [clearsFrom_vectorGet htype]
  cases htype : authRetryType type with
  | some retry => exact ⟨fun _ hnone => (nomatch hnone), fun _ => ⟨True.intro, ht⟩⟩
  | none =>
      have hmissing : (line : List Text)[2]? = none :=
        List.getElem?_eq_none_iff.mpr (by have := hcount.2; omega)
      have hget : vectorGet line 2 = .error (.thrown .arrayIndexOutOfBounds) := by
        simp only [vectorGet, hmissing]
        rfl
      refine ⟨fun hclears => ?_, fun hnot => absurd rfl hnot⟩
      rw [ClearsFrom] at hclears
      dsimp only at hclears
      rw [bind_error (lift_error hget)] at hclears
      exact absurd hclears not_declared_arrayIndexOutOfBounds

theorem not_declared_noSuchElement : ¬Declared (.thrown .noSuchElement) := Bool.false_ne_true

theorem not_declared_inputMismatch : ¬Declared (.thrown .inputMismatch) := Bool.false_ne_true

/-- The text that is left of pieces of which the first has been read. -/
def Left (rest : List Text) (left : Text) : Prop :=
  (rest = [] ∧ left = []) ∨ pieces (· == '.') (skipDelimiter left) = rest

/-- One number of a version: the next piece of the text. -/
theorem nextInt_cases (env : JavaEnv) {text token : Text} {rest : List Text}
    (h : pieces (· == '.') (skipDelimiter text) = token :: rest) :
    (∃ n left, env.nextInt token = some n ∧ nextInt env text = .ok (n, left) ∧ Left rest left) ∨
      (env.nextInt token = none ∧ ∃ e, nextInt env text = .error e ∧ ¬Declared e) := by
  rw [pieces_eq] at h
  obtain ⟨htoken, hrest⟩ := List.cons.inj h
  unfold nextInt
  generalize skipDelimiter text = t at htoken hrest ⊢
  dsimp only
  cases t with
  | nil =>
      right
      rw [← htoken]
      exact ⟨env.nextInt_nil, _, rfl, not_declared_noSuchElement⟩
  | cons c t =>
      have hne : ¬((c :: t).isEmpty = true) := Bool.false_ne_true
      rw [if_neg hne]
      change (c :: t).takeWhile (· != '.') = token at htoken
      rw [htoken]
      cases hn : env.nextInt token with
      | none => exact .inr ⟨rfl, _, rfl, not_declared_inputMismatch⟩
      | some n =>
          refine .inl ⟨n, _, rfl, rfl, ?_⟩
          have hdots : (fun c : Char => !(c == '.')) = (· != '.') := rfl
          rw [hdots] at hrest
          have hdot := List.head?_dropWhile_not (· != '.') (c :: t)
          cases hdrop : (c :: t).dropWhile (· != '.') with
          | nil =>
              rw [hdrop] at hrest
              exact .inl ⟨hrest.symm, rfl⟩
          | cons d left =>
              rw [hdrop] at hrest hdot
              have hd : d = '.' := by simpa using hdot
              rw [hd]
              exact .inr hrest

theorem nextInt_nil (env : JavaEnv) : nextInt env [] = .error (.thrown .noSuchElement) := rfl

/-- A number and what comes after it. -/
theorem nextInt_bind_clean (env : JavaEnv) {rest : List Text} {left : Text} (h : Left rest left)
    {code : Int × Text → Java α} (Accepted : List Text → Prop)
    (hcode : ∀ n left' rest', Left rest' left' →
      (Clean (fun _ => True) (code (n, left')) ↔ Accepted rest')) :
    Clean (fun _ => True) (nextInt env left >>= code) ↔
      ∃ token rest', rest = token :: rest' ∧ (env.nextInt token).isSome ∧ Accepted rest' := by
  have hstop : ∀ {e}, nextInt env left = .error e → ¬Declared e →
      ¬Clean (fun _ => True) (nextInt env left >>= code) := by
    intro e hrun he hclean
    rw [hrun] at hclean
    exact he hclean
  rcases h with ⟨rfl, rfl⟩ | h
  · refine ⟨fun hclean => absurd hclean (hstop (nextInt_nil env) not_declared_noSuchElement), ?_⟩
    rintro ⟨token, rest', hrest, -⟩
    cases hrest
  · cases rest with
    | nil =>
        rw [pieces_eq] at h
        cases h
    | cons token rest =>
        rcases nextInt_cases env h with ⟨n, left', hn, hrun, hleft⟩ | ⟨hn, e, hrun, he⟩
        · rw [hrun, ok_bind, hcode n left' rest hleft]
          constructor
          · intro haccepted
            exact ⟨token, rest, rfl, by rw [hn]; rfl, haccepted⟩
          · rintro ⟨token', rest', hrest, -, haccepted⟩
            rw [(List.cons.inj hrest).2]
            exact haccepted
        · refine ⟨fun hclean => absurd hclean (hstop hrun he), ?_⟩
          rintro ⟨token', rest', hrest, hsome, -⟩
          rw [← (List.cons.inj hrest).1, hn] at hsome
          cases hsome

theorem scanVersion_clean (env : JavaEnv) (version : Text) :
    Clean (fun _ => True) (scanVersion env version) ↔ ThreeNumbers env version := by
  have hversion : Left (pieces (· == '.') (skipDelimiter version)) version := .inr rfl
  have hrun : Clean (fun _ => True) (scanVersion env version) ↔ _ :=
    nextInt_bind_clean env hversion _ fun major left rest hleft =>
      nextInt_bind_clean env hleft _ fun minor left rest hleft =>
        nextInt_bind_clean env hleft (fun _ => True) fun patch left rest hleft => Iff.rfl
  rw [hrun]
  constructor
  · rintro ⟨major, _, hpieces, hmajor, minor, _, rfl, hminor, patch, rest, rfl, hpatch, -⟩
    exact ⟨major, minor, patch, rest, hpieces, hmajor, hminor, hpatch⟩
  · rintro ⟨major, minor, patch, rest, hpieces, hmajor, hminor, hpatch⟩
    exact ⟨major, _, hpieces, hmajor, minor, _, rfl, hminor, patch, rest, rfl, hpatch, True.intro⟩

theorem compatMode_clearsFrom (env : JavaEnv) {s : Import} (hs : Listed s.options) :
    ClearsFrom (compatMode env) s ↔
      ¬∃ version, LastArg s.options "compat-mode" 1 1 1 version ∧ ¬ThreeNumbers env version := by
  refine whenOption_clearsFrom_arg hs (by decide) fun line version t hcount hversion ht => ?_
  rw [clearsFrom_vectorGet hversion, not_not, ← scanVersion_clean]
  exact clearsFrom_modifyProfile ht

/-! ### Connection blocks -/

theorem not_declared_stringIndexOutOfBounds : ¬Declared (.thrown .stringIndexOutOfBounds) :=
  Bool.false_ne_true

theorem connectionBlock_clean (env : JavaEnv) (connDefault : Connection) {conn : List Text}
    {text : Text} (h : conn[1]? = some text) :
    Clean (fun _ => True) (connectionBlock env connDefault conn) ↔
      ¬text.length < VpnProfile.INLINE_TAG.length := by
  rw [connectionBlock, vectorGet_of_getElem? h, ok_bind, parseConnection, substringTag]
  split
  · rename_i hshort
    exact ⟨fun hclean => absurd hclean not_declared_stringIndexOutOfBounds,
      fun hlong => absurd hshort hlong⟩
  · rename_i hlong
    refine ⟨fun _ => hlong, fun _ => ?_⟩
    refine Yields.bind (V := fun _ => True) ?_ fun connections _ => ?_
    · refine Yields.bind (V := fun p : ConfigParser => Listed p.options) (clean_parseConfig _) ?_
      intro parser hparser
      refine Yields.bind (parseConnectionOptions_clean env (some connDefault) _ hparser) ?_
      exact fun _ _ => True.intro
    · split
      · exact True.intro
      · exact clean_configParseError _ _

theorem connectionBlocks_clean (env : JavaEnv) (connDefault : Connection)
    {blocks : List (List Text)} (h : ∀ b ∈ blocks, Counted 1 1 b) :
    Clean (fun _ => True) (blocks.mapM (connectionBlock env connDefault)) ↔
      ¬BlocksCrash env connDefault blocks := by
  refine yields_mapM.trans ?_
  constructor
  · rintro hclean ⟨before, conn, after, text, hblocks, hbefore, htext, hshort⟩
    exact (connectionBlock_clean env connDefault htext).mp
      (hclean before conn after hblocks hbefore) hshort
  · intro hnot before conn after hblocks hbefore
    have hconn := h conn (by rw [hblocks]; simp)
    have htext := List.getElem?_eq_getElem (hconn.lt (by decide : 1 ≤ 1))
    refine (connectionBlock_clean env connDefault htext).mpr fun hshort => hnot ?_
    exact ⟨before, conn, after, _, hblocks, hbefore, htext, hshort⟩

theorem connectionBlocks_clearsFrom (env : JavaEnv) (connDefault : Connection)
    (connections : List Connection) {s : Import} (hs : Listed s.options) :
    ClearsFrom (connectionBlocks env connDefault connections) s ↔
      ¬∃ blocks, connections = [] ∧ Found s.options "connection" 1 1 blocks ∧
        BlocksCrash env connDefault blocks := by
  rw [connectionBlocks, whenAllOption_clearsFrom hs]
  cases connections with
  | cons c connections =>
      refine ⟨fun _ => ?_, fun _ _ _ => rfl⟩
      rintro ⟨blocks, hnil, -⟩
      cases hnil
  | nil =>
      constructor
      · rintro h ⟨blocks, -, hfound, hcrash⟩
        have hclears := (clearsFrom_modifyProfile (hs.remove _)).mp (h blocks hfound)
        exact (connectionBlocks_clean env connDefault hfound.2).mp hclears hcrash
      · intro h blocks hfound
        refine (clearsFrom_modifyProfile (hs.remove _)).mpr ?_
        refine (connectionBlocks_clean env connDefault hfound.2).mpr fun hcrash => h ?_
        exact ⟨blocks, rfl, hfound, hcrash⟩

theorem connections_clearsFrom (env : JavaEnv) {s : Import} (hs : Listed s.options) :
    ClearsFrom (connections env) s ↔ ¬Section.Crashes env s .connections := by
  have hparse := parseConnectionOptions_clean env none s.options hs
  cases hrun : parseConnectionOptions env none s.options with
  | error e =>
      rw [hrun] at hparse
      rw [ClearsFrom, connections, bind_error (lookup_error hrun)]
      refine ⟨fun _ => ?_, fun _ => hparse⟩
      rintro ⟨connDefault, options, blocks, hok, -⟩
      cases hrun.symm.trans hok
  | ok r =>
      obtain ⟨⟨connDefault, conns⟩, options⟩ := r
      rw [hrun] at hparse
      have hblocks := connectionBlocks_clearsFrom env connDefault conns
        (s := { s with options := options, np := { s.np with mConnections := conns } }) hparse.2
      rw [ClearsFrom, connections, bind_ok (lookup_ok hrun)]
      dsimp only
      rw [bind_ok (modifyProfile_run _ _)]
      refine hblocks.trans (not_congr ⟨?_, ?_⟩)
      · rintro ⟨blocks, rfl, hfound, hcrash⟩
        exact ⟨connDefault, options, blocks, hrun, hfound, hcrash⟩
      · rintro ⟨connDefault', options', blocks, hok, hfound, hcrash⟩
        cases hrun.symm.trans hok
        exact ⟨blocks, rfl, hfound, hcrash⟩

/-! ### The whole import -/

/-- A paragraph fails cleanly exactly when it does not crash. -/
theorem Section.run_clearsFrom (env : JavaEnv) {s : Import} (hs : Listed s.options)
    (sec : Section) : ClearsFrom (sec.run env) s ↔ ¬sec.Crashes env s := by
  have hclears : ∀ {code : Import.Code Unit}, Clears (fun _ => True) code →
      (ClearsFrom code s ↔ ¬False) := fun h => ⟨fun _ => not_false, fun _ => h s hs⟩
  cases sec with
  | route => exact route_clearsFrom hs
  | ifconfig => exact ifconfig_clearsFrom env hs
  | compatMode => exact compatMode_clearsFrom env hs
  | authRetry => exact authRetry_clearsFrom hs
  | connections => exact connections_clearsFrom env hs
  | client => exact hclears client_clears
  | secret => exact hclears secret_clears
  | routeIpv6 => exact hclears routeIpv6_clears
  | tlsAuth => exact hclears tlsAuth_clears
  | redirectGateway => exact hclears (whenAllOption_clears fun _ _ _ => clears_modifyProfile _)
  | redirectPrivate => exact hclears redirectPrivate_clears
  | dev => exact hclears dev_clears
  | mssfix => exact hclears mssfix_clears
  | tunMtu => exact hclears tunMtu_clears
  | mode => exact hclears mode_clears
  | dhcpOption => exact hclears dhcpOption_clears
  | ciphers => exact hclears ciphers_clears
  | tlsCertProfile => exact hclears tlsCertProfile_clears
  | provider => exact hclears provider_clears
  | peerFingerprint => exact hclears peerFingerprint_clears
  | tlsRemote => exact hclears tlsRemote_clears
  | verifyX509Name => exact hclears verifyX509Name_clears
  | connectRetry => exact hclears connectRetry_clears
  | remoteCertTls => exact hclears remoteCertTls_clears
  | authUserPass => exact hclears authUserPass_clears
  | crlVerify => exact hclears crlVerify_clears
  | protoForce => exact hclears protoForce_clears
  | accessServer => exact hclears accessServer_clears
  | checkIgnoreAndInvalidOptions => exact hclears (checkIgnoreAndInvalidOptions_clears env)
  | fixup => exact hclears fixup_clears
  | routeNopull | remoteRandomHostname | float | compLzo | nobind | persistTun | pushPeerInfo
  | remoteRandom => exact hclears (flag_clears _ _ _)
  | keyDirection | tlsCrypt | tlsCryptV2 | auth | ca | key | x509UsernameField | verb
  | connectRetryMax => exact hclears (argument_clears _ _)
  | cert | pkcs12 | cryptoapicert =>
      rw [Section.run]
      exact hclears (authType_clears _ _)

/-- The paragraphs fail cleanly exactly when none that is reached crashes. -/
theorem runSections_clean (env : JavaEnv) (secs : List Section) {s : Import}
    (hs : Listed s.options) :
    Clean (fun _ => True) (runSections env secs s) ↔
      ∀ before sec after t, secs = before ++ sec :: after →
        runSections env before s = .ok t → ¬sec.Crashes env t := by
  induction secs generalizing s with
  | nil =>
      refine ⟨fun _ before sec after t h => ?_, fun _ => True.intro⟩
      cases before <;> cases h
  | cons sec secs ih =>
      have hsec := sec.run_clearsFrom env hs
      rw [runSections]
      cases hrun : sec.run env s with
      | error e =>
          rw [ClearsFrom, hrun] at hsec
          refine hsec.trans ⟨fun hnot before sec' after t h ht => ?_, fun h => h [] sec secs s rfl rfl⟩
          cases before with
          | nil =>
              cases ht
              rw [← (List.cons.inj h).1]
              exact hnot
          | cons sec'' before =>
              rw [← (List.cons.inj h).1, runSections, hrun] at ht
              cases ht
      | ok r =>
          have hr : Listed r.2.options := (sec.run_listed env).of_ok hs hrun
          rw [ClearsFrom, hrun] at hsec
          have hnot : ¬sec.Crashes env s := hsec.mp ⟨True.intro, hr⟩
          rw [ih hr]
          constructor
          · intro h before sec' after t hsecs ht
            cases before with
            | nil =>
                cases ht
                rw [← (List.cons.inj hsecs).1]
                exact hnot
            | cons sec'' before =>
                obtain ⟨rfl, hrest⟩ := List.cons.inj hsecs
                rw [runSections, hrun] at ht
                exact h before sec' after t hrest ht
          · intro h before sec' after t hsecs ht
            refine h (sec :: before) sec' after t (by rw [hsecs]; rfl) ?_
            rw [runSections, hrun]
            exact ht

/-- `parseConfig` and then `convertProfile` end in a profile or in a declared exception. -/
def ImportsCleanly (env : JavaEnv) (text : Text) : Prop :=
  Clean (fun _ => True) (importProfile env text)

/-- No paragraph that the import of the text reaches crashes. -/
def ReachesNoCrash (env : JavaEnv) (text : Text) : Prop :=
  ∀ parser before sec after s, parseConfig text = .ok parser →
    paragraphs = before ++ sec :: after → runSections env before (Import.start parser) = .ok s →
    ¬Section.Crashes env s sec

theorem importsCleanly_iff (env : JavaEnv) (text : Text) :
    ImportsCleanly env text ↔ ReachesNoCrash env text := by
  have hparse := clean_parseConfig text
  cases hrun : parseConfig text with
  | error e =>
      rw [hrun] at hparse
      rw [ImportsCleanly, importProfile, hrun]
      refine ⟨fun _ parser before sec after s h => ?_, fun _ => hparse⟩
      cases hrun.symm.trans h
  | ok parser =>
      rw [hrun] at hparse
      rw [ImportsCleanly, importProfile, hrun, ok_bind, convertProfile]
      refine yields_map.trans ?_
      refine (runSections_clean env paragraphs (s := Import.start parser) hparse).trans ?_
      constructor
      · intro h parser' before sec after s hparser hsecs hs
        cases hrun.symm.trans hparser
        exact h before sec after s hsecs hs
      · intro h before sec after s hsecs hs
        exact h parser before sec after s hrun hsecs hs

theorem not_importsCleanly : ¬∀ env text, ImportsCleanly env text := by
  intro h
  have hrun : importProfile JavaEnv.sorted "auth-retry foo\n"
      = .error (.thrown .arrayIndexOutOfBounds) := by decide +kernel
  have hclean := h JavaEnv.sorted "auth-retry foo\n"
  rw [ImportsCleanly, hrun] at hclean
  exact not_declared_arrayIndexOutOfBounds hclean

end ConfigParser

end OpenVpnAndroid
