/-
  OpenVpnAndroid/AdWaterfall.lean
  ===============================
  **The offers of a type are asked for one after the other, the best first.**

  `loadAd` asks for the first offer of the sorted list and each failure asks for the
  next one, until one loads or the list is at its end.  In between the SDK answers for
  the other types, and the app does other things.

  `waterfall_run` follows one call through any such run: at every point the offers that
  were requested are a beginning of the sorted list, all but the last have failed, and
  the last is open, cached, or the end of a list that had nothing.
-/
import OpenVpnAndroid.AdManager

namespace OpenVpnAndroid

/-! ### The order -/

/-- The same offers by decreasing `easy_no`; those with one `easy_no` keep their order. -/
structure ByDescending (adList sorted : List AdEasy) : Prop where
  perm : sorted.Perm adList
  decreasing : sorted.Pairwise fun a b => b.easy_no ≤ a.easy_no
  ties : ∀ no, (sorted.filter fun a => a.easy_no = no) = adList.filter fun a => a.easy_no = no

theorem byDescending_sortedByDescending (adList : List AdEasy) :
    ByDescending adList (sortedByDescending adList) := by
  have hperm : (sortedByDescending adList).Perm adList := List.perm_insertionSort _ adList
  have htotal : Std.Total fun a b : AdEasy => b.easy_no ≤ a.easy_no :=
    ⟨fun a b => le_total b.easy_no a.easy_no⟩
  have htrans : IsTrans AdEasy fun a b => b.easy_no ≤ a.easy_no :=
    ⟨fun a b c hab hbc => le_trans hbc hab⟩
  refine ⟨hperm, List.pairwise_insertionSort _ adList, fun no => ?_⟩
  -- offers with one number are sorted already, so they stay a sublist
  have hsorted : (adList.filter fun a => a.easy_no = no).Pairwise
      fun a b => b.easy_no ≤ a.easy_no := by
    refine List.pairwise_iff_forall_sublist.mpr fun {a b} hab => ?_
    have ha : a.easy_no = no := by
      simpa using List.of_mem_filter (hab.subset List.mem_cons_self)
    have hb : b.easy_no = no := by
      simpa using List.of_mem_filter (hab.subset (List.mem_cons_of_mem _ List.mem_cons_self))
    rw [ha, hb]
  have hsub : (adList.filter fun a => a.easy_no = no).Sublist (sortedByDescending adList) :=
    List.sublist_insertionSort hsorted List.filter_sublist
  have hfilter := hsub.filter fun a => a.easy_no = no
  rw [List.filter_filter] at hfilter
  simp only [Bool.and_self] at hfilter
  exact (hfilter.eq_of_length (hperm.filter _).length_eq.symm).symm

theorem filter_eraseIdx {α : Type*} {p : α → Bool} {l : List α} {i : Nat} {a : α}
    (h : l[i]? = some a) :
    (p a = false → (l.eraseIdx i).filter p = l.filter p) ∧
      (p a = true → l.filter p = [a] → (l.eraseIdx i).filter p = []) := by
  obtain ⟨hlt, rfl⟩ := List.getElem?_eq_some_iff.mp h
  have hl : l.filter p = (l.take i).filter p ++ ([l[i]] ++ l.drop (i + 1)).filter p := by
    rw [← List.filter_append, List.singleton_append, List.getElem_cons_drop, List.take_append_drop]
  rw [List.eraseIdx_eq_take_drop_succ, List.filter_append]
  constructor
  · intro ha
    rw [hl, List.filter_append, List.filter_singleton, ha]
    rfl
  · intro ha hone
    rw [hl, List.filter_append, List.filter_singleton, ha] at hone
    have hlength := congrArg List.length hone
    simp only [List.length_append, cond_true, List.length_cons, List.length_nil] at hlength
    rw [List.eq_nil_of_length_eq_zero (l := (l.take i).filter p) (by omega),
      List.eq_nil_of_length_eq_zero (l := (l.drop (i + 1)).filter p) (by omega)]
    rfl

/-- The offer that a request is for. -/
def AdRequest.offer (r : AdRequest) : Option AdEasy := r.adList[r.index]?

namespace FastVpn

variable {s s' : FastVpn} {adType : AdType} {adList : List AdEasy} {index : Nat}

/-! ### Requests of one type -/

def openRequests (s : FastVpn) (adType : AdType) : List AdRequest :=
  s.requests.filter fun r => r.adType = adType

/-- The gates of `loadAdFromList` that do not look at the cache. -/
structure GatesOpen (s : FastVpn) (adType : AdType) : Prop where
  online : s.online = true
  canLoadAd : s.canLoadAd.1 = true
  bought : (!s.surroundings.blockAdUsers && boughtOnly adType) = false
  black : (s.surroundings.adBlackData && blackListed adType) = false

theorem GatesOpen.refuses (h : s.GatesOpen adType)
    (hcache : s.adManager.adCache adType = none) : s.refuses adType = false := by
  simp [FastVpn.refuses, hcache, h.canLoadAd, h.bought, h.black]

/-- The state in which the callback of an answer runs. -/
def answering (s : FastVpn) : Event → FastVpn
  | .adLoaded i => s.answered i
  | .adFailedToLoad i => s.answered i
  | _ => s

/-- The requests for the type that a step makes. -/
def issued (adType : AdType) (s : FastVpn) (e : Event) : List AdRequest :=
  ((s.step e).requests.drop (s.answering e).requests.length).filter fun r => r.adType = adType

/-- The request for the type that a step answers. -/
def answers (adType : AdType) (s : FastVpn) : Event → List AdRequest
  | .adLoaded i => s.requests[i]?.toList.filter fun r => r.adType = adType
  | .adFailedToLoad i => s.requests[i]?.toList.filter fun r => r.adType = adType
  | _ => []

/-- The cached ad, the flag and the open requests of a type are as before. -/
structure Untouched (adType : AdType) (s s' : FastVpn) : Prop where
  adCache : s'.adManager.adCache adType = s.adManager.adCache adType
  adLoadInProgress :
    s'.adManager.adLoadInProgress adType = s.adManager.adLoadInProgress adType
  openRequests : s'.openRequests adType = s.openRequests adType

theorem Untouched.refl (s : FastVpn) : Untouched adType s s := ⟨rfl, rfl, rfl⟩

theorem Untouched.trans {s'' : FastVpn} (h : Untouched adType s s') (h' : Untouched adType s' s'') :
    Untouched adType s s'' :=
  ⟨h'.adCache.trans h.adCache, h'.adLoadInProgress.trans h.adLoadInProgress,
    h'.openRequests.trans h.openRequests⟩

theorem Quiet.untouched (h : Quiet s s') : Untouched adType s s' :=
  ⟨by rw [h.adCache], by rw [h.adLoadInProgress], by rw [openRequests, h.requests, openRequests]⟩

theorem untouched_setLoadInProgress {t : AdType} (ht : t ≠ adType) (inProgress : Bool) :
    Untouched adType s (s.setLoadInProgress t inProgress) :=
  ⟨rfl, Function.update_of_ne (Ne.symm ht) _ _, rfl⟩

theorem untouched_removeAd {t : AdType} (ht : t ≠ adType) : Untouched adType s (s.removeAd t) :=
  ⟨Function.update_of_ne (Ne.symm ht) _ _, rfl, rfl⟩

theorem untouched_qcAd {t : AdType} (ht : t ≠ adType) : Untouched adType s (s.qcAd t) :=
  (untouched_setLoadInProgress ht false).trans (untouched_removeAd ht)

/-- A step of another type: it may make requests, but none for this type. -/
structure Elsewhere (adType : AdType) (s s' : FastVpn) : Prop extends Untouched adType s s' where
  requests : ∃ new : List AdRequest, s'.requests = s.requests ++ new ∧
    ∀ r ∈ new, r.adType ≠ adType

theorem elsewhere_loadAdFromList {t : AdType} (ht : t ≠ adType) :
    Elsewhere adType s (s.loadAdFromList t adList index) := by
  rcases s.loadAdFromList_cases t adList index with
    ⟨-, hquiet⟩ | ⟨-, -, heq⟩ | ⟨adEasy, format, s', -, hquiet, heq⟩
  · exact ⟨hquiet.untouched, [], by simp [hquiet.requests], fun _ h => nomatch h⟩
  · rw [heq]
    exact ⟨untouched_setLoadInProgress ht false, [], (List.append_nil _).symm, fun _ h => nomatch h⟩
  · rw [heq]
    have hrequests : (request format s' t adEasy adList index).requests =
        s.requests ++ [⟨t, adList, index, format, s'.connectedThrough⟩] := by
      rw [← hquiet.requests]
      rfl
    refine ⟨⟨?_, ?_, ?_⟩, _, hrequests, by simpa using ht⟩
    · rw [← hquiet.adCache]
      rfl
    · rw [← hquiet.adLoadInProgress]
      rfl
    · rw [openRequests, hrequests, List.filter_append, openRequests]
      simp [ht]

theorem elsewhere_loadAd {t : AdType} (ht : t ≠ adType) : Elsewhere adType s (s.loadAd t) := by
  have hself : ∀ s' : FastVpn, Untouched adType s s' → s'.requests = s.requests →
      Elsewhere adType s s' :=
    fun s' h hrequests => ⟨h, [], by simp [hrequests], fun _ h => nomatch h⟩
  have hstart : Untouched adType s (s.startLoad t) :=
    ⟨rfl, Function.update_of_ne (Ne.symm ht) _ _, rfl⟩
  rw [loadAd]
  split
  · exact hself _ (Untouched.refl s) rfl
  · split
    · exact hself _ ⟨rfl, rfl, rfl⟩ rfl
    · split
      · exact hself _ hstart rfl
      · obtain ⟨huntouched, new, hnew, hother⟩ :=
          @elsewhere_loadAdFromList (s.startLoad t) adType (sortedByDescending _) 0 t ht
        exact ⟨hstart.trans huntouched, new, hnew, hother⟩

/-! ### Steps that leave a type alone -/

/-- Nothing but its own answers touches the type.  It may be loaded again while the load is
    in progress, and shown as long as it has no ad. -/
def LeavesAlone (adType : AdType) (s : FastVpn) : Event → Prop
  | .loadAd t => t = adType → s.adManager.adLoadInProgress adType = true
  | .qcAd t => t ≠ adType
  | .showAd t _ => t = adType → s.adManager.adCache adType = none
  | .adFailedToShow t => t ≠ adType
  | .homeNativeShown => adType ≠ .home_type
  | .endNativeShown => adType ≠ .result_type
  | .clearAds server => s.adManager.loadNowIp = some server
  | _ => True

theorem untouched_answered {i : Nat} (h : ∀ r, s.requests[i]? = some r → r.adType ≠ adType) :
    Untouched adType s (s.answered i) := by
  refine ⟨rfl, rfl, ?_⟩
  cases hr : s.requests[i]? with
  | none =>
    have hlength : s.requests.length ≤ i := List.getElem?_eq_none_iff.mp hr
    rw [openRequests, answered, List.eraseIdx_of_length_le hlength, openRequests]
  | some r => exact (filter_eraseIdx hr).1 (by simpa using h r hr)

theorem Elsewhere.of_requests (h : Untouched adType s s') (hrequests : s'.requests = s.requests) :
    Elsewhere adType s s' :=
  ⟨h, [], by simp [hrequests], fun _ h => nomatch h⟩

/-- An answer to a request of another type. -/
theorem elsewhere_answer {i : Nat} {callback : FastVpn → AdRequest → FastVpn}
    (hother : ∀ r, s.requests[i]? = some r → r.adType ≠ adType)
    (hcallback : ∀ r, r.adType ≠ adType →
      Elsewhere adType (s.answered i) (callback (s.answered i) r)) :
    Untouched adType s (s.answered i) ∧
      Elsewhere adType (s.answered i) (s.answer i callback) := by
  refine ⟨untouched_answered hother, ?_⟩
  rw [answer]
  split
  · rename_i hnone
    have hlength : s.requests.length ≤ i := List.getElem?_eq_none_iff.mp hnone
    have hself : s.answered i = s := by rw [answered, List.eraseIdx_of_length_le hlength]
    rw [hself]
    exact .of_requests (Untouched.refl s) rfl
  · rename_i r hr
    exact hcallback r (hother r hr)

theorem ne_of_answers {i : Nat}
    (h : (s.requests[i]?.toList.filter fun r => r.adType = adType) = []) :
    ∀ r, s.requests[i]? = some r → r.adType ≠ adType := by
  intro r hr
  simpa [hr] using h

theorem elsewhere_step (e : Event) (halone : LeavesAlone adType s e)
    (hnone : answers adType s e = []) :
    Untouched adType s (s.answering e) ∧ Elsewhere adType (s.answering e) (s.step e) := by
  have hself : ∀ s' : FastVpn, Untouched adType s s' → s'.requests = s.requests →
      Untouched adType s s ∧ Elsewhere adType s s' :=
    fun s' h hrequests => ⟨Untouched.refl s, .of_requests h hrequests⟩
  cases e with
  | loadAd t =>
    refine ⟨Untouched.refl s, ?_⟩
    by_cases ht : t = adType
    · have hflag : s.adManager.adLoadInProgress t = true := by rw [ht]; exact halone ht
      rw [step, loadAd, hflag, if_pos rfl]
      split
      · exact .of_requests (Untouched.refl s) rfl
      · exact .of_requests ⟨rfl, rfl, rfl⟩ rfl
    · exact elsewhere_loadAd ht
  | adLoaded i =>
    refine elsewhere_answer (ne_of_answers hnone) fun r hr => .of_requests ?_ rfl
    exact ⟨Function.update_of_ne (Ne.symm hr) _ _, Function.update_of_ne (Ne.symm hr) _ _, rfl⟩
  | adFailedToLoad i =>
    exact elsewhere_answer (ne_of_answers hnone) fun r hr => elsewhere_loadAdFromList hr
  | qcAd t => exact hself _ (untouched_qcAd halone) rfl
  | showAd t foreground =>
    refine ⟨Untouched.refl s, ?_⟩
    rw [step, showAd]
    split
    · exact .of_requests (Untouched.refl s) rfl
    · rename_i ad had
      have ht : t ≠ adType := by
        rintro rfl
        rw [halone rfl] at had
        cases had
      split
      · exact .of_requests (untouched_removeAd ht) rfl
      · exact .of_requests (Untouched.refl s) rfl
  | adFailedToShow t => exact hself _ (untouched_removeAd halone) rfl
  | homeNativeShown =>
    have hcount : Untouched adType s s.setShowNumFun := ⟨rfl, rfl, rfl⟩
    exact hself _ (hcount.trans (untouched_qcAd (Ne.symm halone))) rfl
  | endNativeShown =>
    have hcount : Untouched adType s s.setShowNumFun := ⟨rfl, rfl, rfl⟩
    have hqc : Untouched adType s (s.setShowNumFun.qcAd .result_type) :=
      hcount.trans (untouched_qcAd (Ne.symm halone))
    refine ⟨Untouched.refl s, ?_⟩
    rw [step, setDisplayEndNativeAdFlash]
    split
    · exact .of_requests hqc rfl
    · exact .of_requests ⟨hqc.adCache, hqc.adLoadInProgress, hqc.openRequests⟩ rfl
  | canShowAd t =>
    have hquiet := s.quiet_canShowAd t
    exact hself _ hquiet.untouched hquiet.requests
  | clearAds server =>
    have hstay : s.clearAds server = s := if_pos halone
    refine hself _ ?_ ?_
    · rw [step, hstay]
      exact Untouched.refl s
    · rw [step, hstay]
  | adShowed | adClicked | setVpnStateData | surroundings | setVpnIp | startVPN =>
    exact hself _ ⟨rfl, rfl, rfl⟩ rfl

/-- Such a step changes nothing for the type and makes no request for it. -/
theorem untouched_step {e : Event} (halone : LeavesAlone adType s e)
    (hnone : answers adType s e = []) :
    Untouched adType s (s.step e) ∧ issued adType s e = [] := by
  obtain ⟨hanswering, hstep⟩ := elsewhere_step e halone hnone
  obtain ⟨new, hnew, hother⟩ := hstep.requests
  refine ⟨hanswering.trans hstep.toUntouched, ?_⟩
  rw [issued, hnew, List.drop_left, List.filter_eq_nil_iff]
  exact fun r hr => by simpa using hother r hr

/-! ### The waterfall -/

/-- `requested` are the first `n + 1` offers in their order; all but the last have failed,
    and the last request is `r`. -/
structure Reached (adType : AdType) (sorted : List AdEasy) (loads : Nat → Bool)
    (requested : List AdRequest) (n : Nat) (r : AdRequest) : Prop where
  lt : n < sorted.length
  offers : requested.map AdRequest.offer = (sorted.take (n + 1)).map some
  failed : ∀ k < n, loads k = false
  last : requested.getLast? = some r
  eq : r.adType = adType ∧ r.adList = sorted ∧ r.index = n

/-- How far a call has come: `requested` are the requests that it has made, and
    `answerCount` is the number of those that were answered. -/
inductive Waterfall (adType : AdType) (sorted : List AdEasy) (loads : Nat → Bool) (s : FastVpn)
    (requested : List AdRequest) (answerCount : Nat) : Prop
  /-- The last request is the only open one. -/
  | waiting (n : Nat) (r : AdRequest) (reached : Reached adType sorted loads requested n r)
      (answerCount_eq : answerCount = n) (open_eq : s.openRequests adType = [r])
      (uncached : s.adManager.adCache adType = none)
      (flag : s.adManager.adLoadInProgress adType = true)
  /-- The last request has loaded, and its ad is cached. -/
  | loaded (n : Nat) (r : AdRequest) (reached : Reached adType sorted loads requested n r)
      (answerCount_eq : answerCount = n + 1) (loads_eq : loads n = true)
      (open_eq : s.openRequests adType = [])
      (cached : s.adManager.adCache adType = some ⟨r.format, r.requestedThrough⟩)
      (flag : s.adManager.adLoadInProgress adType = false)
  /-- Every offer has failed. -/
  | exhausted (offers : requested.map AdRequest.offer = sorted.map some)
      (answerCount_eq : answerCount = sorted.length) (failed : ∀ k < sorted.length, loads k = false)
      (open_eq : s.openRequests adType = [])
      (uncached : s.adManager.adCache adType = none)
      (flag : s.adManager.adLoadInProgress adType = false)

/-- The answers to the requests of the type are as `loads` has it for their offers. -/
def AnswersAs (adType : AdType) (loads : Nat → Bool) (s : FastVpn) : Event → Prop
  | .adLoaded i => ∀ r, s.requests[i]? = some r → r.adType = adType → loads r.index = true
  | .adFailedToLoad i => ∀ r, s.requests[i]? = some r → r.adType = adType → loads r.index = false
  | _ => True

/-- A step of a run in which the gates stay open and the type is left alone. -/
structure Undisturbed (adType : AdType) (loads : Nat → Bool) (s : FastVpn) (e : Event) :
    Prop where
  gates : s.GatesOpen adType
  alone : LeavesAlone adType s e
  answers : AnswersAs adType loads s e

variable {sorted : List AdEasy} {loads : Nat → Bool} {requested : List AdRequest}
  {answerCount : Nat}

theorem Waterfall.congr (h : Waterfall adType sorted loads s requested answerCount)
    (huntouched : Untouched adType s s') :
    Waterfall adType sorted loads s' requested answerCount := by
  obtain ⟨hcache, hflag, hopen⟩ := huntouched
  cases h with
  | waiting n r reached answerCount_eq open_eq uncached flag =>
    exact .waiting n r reached answerCount_eq (hopen.trans open_eq) (hcache.trans uncached)
      (hflag.trans flag)
  | loaded n r reached answerCount_eq loads_eq open_eq cached flag =>
    exact .loaded n r reached answerCount_eq loads_eq (hopen.trans open_eq) (hcache.trans cached)
      (hflag.trans flag)
  | exhausted offers answerCount_eq failed open_eq uncached flag =>
    exact .exhausted offers answerCount_eq failed (hopen.trans open_eq) (hcache.trans uncached)
      (hflag.trans flag)

/-- The next call of `loadAdFromList`, with all before it failed: `requested` and the
    requests that it adds. -/
theorem waterfall_loadAdFromList (hgates : s.GatesOpen adType)
    (hknown : ∀ adEasy ∈ sorted, (formatOf adEasy.easy_ty).isSome = true)
    (hcache : s.adManager.adCache adType = none)
    (hflag : s.adManager.adLoadInProgress adType = true) (hopen : s.openRequests adType = [])
    (hle : index ≤ sorted.length)
    (hoffers : requested.map AdRequest.offer = (sorted.take index).map some)
    (hfailed : ∀ k < index, loads k = false) :
    ∃ new : List AdRequest, (s.loadAdFromList adType sorted index).requests = s.requests ++ new ∧
      (∀ r ∈ new, r.adType = adType) ∧
      Waterfall adType sorted loads (s.loadAdFromList adType sorted index) (requested ++ new)
        index := by
  have hrefuses := hgates.refuses hcache
  rcases s.loadAdFromList_cases adType sorted index with
    ⟨hleaves, -⟩ | ⟨-, hend, heq⟩ | ⟨adEasy, format, s', hissues, hquiet, heq⟩
  · exfalso
    rcases hleaves with hoff | ⟨adEasy, hoffer, hyes | hnone⟩
    · simp [hgates.online] at hoff
    · simp [hrefuses] at hyes
    · have hsome := hknown adEasy (List.mem_of_getElem? hoffer)
      simp [hnone] at hsome
  · obtain rfl : index = sorted.length := le_antisymm hle (List.getElem?_eq_none_iff.mp hend)
    refine ⟨[], ?_, fun _ h => (nomatch h), ?_⟩
    · rw [heq, List.append_nil]
      rfl
    · rw [heq, List.append_nil]
      refine .exhausted ?_ rfl hfailed hopen hcache (Function.update_self _ _ _)
      rw [hoffers, List.take_length]
  · have hlt : index < sorted.length := (List.getElem?_eq_some_iff.mp hissues.offer).1
    have hrequests : (request format s' adType adEasy sorted index).requests =
        s.requests ++ [⟨adType, sorted, index, format, s'.connectedThrough⟩] := by
      rw [← hquiet.requests]
      rfl
    refine ⟨_, heq ▸ hrequests, by simp, ?_⟩
    rw [heq]
    refine .waiting index _ ⟨hlt, ?_, hfailed, List.getLast?_concat, rfl, rfl, rfl⟩ rfl ?_ ?_ ?_
    · rw [List.map_append, hoffers, List.take_add_one, List.map_append, hissues.offer]
      simp [AdRequest.offer, hissues.offer]
    · rw [openRequests, hrequests, List.filter_append]
      rw [openRequests] at hopen
      simp [hopen]
    · exact (congrFun hquiet.adCache adType).trans hcache
    · exact (congrFun hquiet.adLoadInProgress adType).trans hflag

/-! ### One step -/

theorem canLoadAd_answered (s : FastVpn) (i : Nat) :
    (s.answered i).canLoadAd.1 = s.canLoadAd.1 := by
  by_cases hday : s.isSameDay s.preference.ad_load_date s.surroundings.currentTimeMillis = true
  · have hday' : (s.answered i).isSameDay (s.answered i).preference.ad_load_date
        (s.answered i).surroundings.currentTimeMillis = true := hday
    rw [canLoadAd, canLoadAd, resetCountsIfNeeded, resetCountsIfNeeded, if_pos hday, if_pos hday']
    rfl
  · have hday' : ¬(s.answered i).isSameDay (s.answered i).preference.ad_load_date
        (s.answered i).surroundings.currentTimeMillis = true := hday
    rw [canLoadAd, canLoadAd, resetCountsIfNeeded, resetCountsIfNeeded, if_neg hday, if_neg hday']
    rfl

theorem GatesOpen.answered (h : s.GatesOpen adType) (i : Nat) : (s.answered i).GatesOpen adType :=
  ⟨h.online, (canLoadAd_answered s i).trans h.canLoadAd, h.bought, h.black⟩

/-- Only the open request of the waterfall can be answered. -/
theorem Waterfall.of_answer (h : Waterfall adType sorted loads s requested answerCount) {i : Nat}
    {r : AdRequest} (hr : s.requests[i]? = some r) (htype : r.adType = adType) :
    ∃ n, Reached adType sorted loads requested n r ∧ answerCount = n ∧
      (s.answered i).openRequests adType = [] ∧ s.adManager.adCache adType = none ∧
      s.adManager.adLoadInProgress adType = true := by
  have hmem : r ∈ s.openRequests adType :=
    List.mem_filter.mpr ⟨List.mem_of_getElem? hr, by simpa using htype⟩
  cases h with
  | waiting n r' reached answerCount_eq open_eq uncached flag =>
    rw [open_eq, List.mem_singleton] at hmem
    subst hmem
    exact ⟨n, reached, answerCount_eq, (filter_eraseIdx hr).2 (by simpa using htype) open_eq,
      uncached, flag⟩
  | loaded n r' reached answerCount_eq loads_eq open_eq => simp [open_eq] at hmem
  | exhausted offers answerCount_eq failed open_eq => simp [open_eq] at hmem

theorem waterfall_adLoaded {i : Nat} {r : AdRequest}
    (h : Waterfall adType sorted loads s requested answerCount) (hr : s.requests[i]? = some r)
    (htype : r.adType = adType) (hloads : loads r.index = true) :
    Waterfall adType sorted loads (s.step (.adLoaded i))
      (requested ++ issued adType s (.adLoaded i)) (answerCount + 1) := by
  obtain ⟨n, reached, rfl, hopen, -, -⟩ := h.of_answer hr htype
  have hstep : s.step (.adLoaded i) = (s.answered i).onAdLoaded r := by rw [step, answer, hr]
  have hnone : issued adType s (.adLoaded i) = [] := by
    rw [issued, hstep]
    exact congrArg _ List.drop_length
  rw [hnone, List.append_nil, hstep]
  refine .loaded answerCount r reached rfl (reached.eq.2.2 ▸ hloads) hopen ?_ ?_
  · rw [← htype]
    exact Function.update_self _ _ _
  · rw [← htype]
    exact Function.update_self _ _ _

theorem waterfall_adFailedToLoad {i : Nat} {r : AdRequest}
    (h : Waterfall adType sorted loads s requested answerCount) (hgates : s.GatesOpen adType)
    (hknown : ∀ adEasy ∈ sorted, (formatOf adEasy.easy_ty).isSome = true)
    (hr : s.requests[i]? = some r) (htype : r.adType = adType) (hfails : loads r.index = false) :
    Waterfall adType sorted loads (s.step (.adFailedToLoad i))
      (requested ++ issued adType s (.adFailedToLoad i)) (answerCount + 1) := by
  obtain ⟨n, reached, rfl, hopen, hcache, hflag⟩ := h.of_answer hr htype
  obtain ⟨-, hlist, hindex⟩ := reached.eq
  have hstep : s.step (.adFailedToLoad i) =
      (s.answered i).loadAdFromList adType sorted (answerCount + 1) := by
    rw [step, answer, hr, ← htype, ← hlist, ← hindex]
    rfl
  have hfailed : ∀ k < answerCount + 1, loads k = false := by
    intro k hk
    rcases Nat.lt_succ_iff_lt_or_eq.mp hk with hk | rfl
    · exact reached.failed k hk
    · exact hindex ▸ hfails
  obtain ⟨new, hnew, hown, hwaterfall⟩ := waterfall_loadAdFromList (hgates.answered i) hknown
    hcache hflag hopen reached.lt reached.offers hfailed
  have hissued : issued adType s (.adFailedToLoad i) = new := by
    rw [issued, hstep, hnew]
    simp only [answering, List.drop_left]
    exact List.filter_eq_self.mpr fun r hr => by simpa using hown r hr
  rw [hissued, hstep]
  exact hwaterfall

theorem waterfall_step (hknown : ∀ adEasy ∈ sorted, (formatOf adEasy.easy_ty).isSome = true)
    (h : Waterfall adType sorted loads s requested answerCount) {e : Event}
    (hmeets : Undisturbed adType loads s e) :
    Waterfall adType sorted loads (s.step e) (requested ++ issued adType s e)
      (answerCount + (answers adType s e).length) := by
  by_cases hnone : answers adType s e = []
  · obtain ⟨huntouched, hissued⟩ := untouched_step hmeets.alone hnone
    rw [hissued, hnone, List.append_nil]
    exact h.congr huntouched
  · -- the step is an answer to a request of the type
    have hanswer : ∀ i, answers adType s (.adLoaded i) ≠ [] →
        ∃ r, s.requests[i]? = some r ∧ r.adType = adType ∧
          (answers adType s (.adLoaded i)).length = 1 := by
      intro i hi
      cases hr : s.requests[i]? with
      | none => simp [answers, hr] at hi
      | some r =>
        have htype : r.adType = adType := by simpa [answers, hr] using hi
        exact ⟨r, rfl, htype, by simp [answers, hr, htype]⟩
    cases e with
    | adLoaded i =>
      obtain ⟨r, hr, htype, hone⟩ := hanswer i hnone
      rw [hone]
      exact waterfall_adLoaded h hr htype (hmeets.answers r hr htype)
    | adFailedToLoad i =>
      obtain ⟨r, hr, htype, hone⟩ := hanswer i hnone
      rw [show (answers adType s (.adFailedToLoad i)).length = 1 from hone]
      exact waterfall_adFailedToLoad h hmeets.gates hknown hr htype (hmeets.answers r hr htype)
    | _ => exact absurd rfl hnone

/-! ### Runs -/

/-- The app from a call of `loadAd` on. -/
def loading (s : FastVpn) (adType : AdType) : Machine FastVpn Event where
  initial := s.step (.loadAd adType)
  step := step

theorem waterfall_loadAd (hlist : s.surroundings.adListData.listOf adType = some adList)
    (hknown : ∀ adEasy ∈ adList, (formatOf adEasy.easy_ty).isSome = true)
    (hcache : s.adManager.adCache adType = none)
    (hflag : s.adManager.adLoadInProgress adType = false) (hopen : s.openRequests adType = [])
    (hgates : (s.startLoad adType).GatesOpen adType) :
    Waterfall adType (sortedByDescending adList) loads (s.step (.loadAd adType))
      (issued adType s (.loadAd adType)) 0 := by
  have hknown' : ∀ adEasy ∈ sortedByDescending adList, (formatOf adEasy.easy_ty).isSome = true :=
    fun adEasy h => hknown adEasy ((byDescending_sortedByDescending adList).perm.mem_iff.mp h)
  have hoffers : ([] : List AdRequest).map AdRequest.offer =
      ((sortedByDescending adList).take 0).map some := rfl
  have hfailed : ∀ k < 0, loads k = false := fun k hk => absurd hk (Nat.not_lt_zero k)
  obtain ⟨new, hnew, hown, hwaterfall⟩ := waterfall_loadAdFromList hgates hknown' hcache
    (Function.update_self _ _ _) hopen (Nat.zero_le _) hoffers hfailed
  have hstep : s.step (.loadAd adType) =
      (s.startLoad adType).loadAdFromList adType (sortedByDescending adList) 0 := by
    have hon : s.online = true := hgates.online
    simp [step, loadAd, hon, hflag, hlist]
  have hissued : issued adType s (.loadAd adType) = new := by
    have hrequests : (s.startLoad adType).requests = s.requests := rfl
    rw [issued, hstep, hnew, hrequests]
    simp only [answering, List.drop_left]
    exact List.filter_eq_self.mpr fun r hr => by simpa using hown r hr
  rw [hissued, hstep]
  exact hwaterfall

/-- **A load goes through the offers in order.**  It begins with no ad cached, no load of
    the type in progress and every gate open, and nothing else touches the type; then
    after every run the offers asked for are a beginning of the sorted list, one at a time,
    up to the first that loads, which is cached, or to the end of the list. -/
theorem waterfall_run (s : FastVpn) (adType : AdType) (adList : List AdEasy) (loads : Nat → Bool)
    (es : List Event) (hlist : s.surroundings.adListData.listOf adType = some adList)
    (hknown : ∀ adEasy ∈ adList, (formatOf adEasy.easy_ty).isSome = true)
    (hcache : s.adManager.adCache adType = none)
    (hflag : s.adManager.adLoadInProgress adType = false) (hopen : s.openRequests adType = [])
    (hgates : (s.startLoad adType).GatesOpen adType)
    (hes : (s.loading adType).EveryStep (Undisturbed adType loads) es) :
    ByDescending adList (sortedByDescending adList) ∧
      Waterfall adType (sortedByDescending adList) loads ((s.loading adType).run es)
        (issued adType s (.loadAd adType) ++ (s.loading adType).outputs (issued adType) es)
        ((s.loading adType).outputs (answers adType) es).length := by
  have hsorted := byDescending_sortedByDescending adList
  have hknown' : ∀ adEasy ∈ sortedByDescending adList, (formatOf adEasy.easy_ty).isSome = true :=
    fun adEasy h => hknown adEasy (hsorted.perm.mem_iff.mp h)
  refine ⟨hsorted, ?_⟩
  induction es using List.reverseRecOn with
  | nil =>
    rw [show (s.loading adType).outputs (issued adType) [] = [] from rfl, List.append_nil]
    exact waterfall_loadAd hlist hknown hcache hflag hopen hgates
  | append_singleton es e ih =>
    rw [Machine.everyStep_append_singleton] at hes
    rw [Machine.run_append_singleton, Machine.outputs_append_singleton,
      Machine.outputs_append_singleton, ← List.append_assoc, List.length_append]
    exact waterfall_step hknown' (ih hes.1) hes.2

/-- A configuration with two offers for the result page, the better one last. -/
def twoOffers : Surroundings :=
  { resultOfferOnly with
    adListData :=
      { resultOfferOnly.adListData with
        resu_easy := some [⟨"1", 2, "native", []⟩, ⟨"2", 3, "interstitial", []⟩] } }

/-- The app with a VPN connection and these offers. -/
def withTwoOffers : FastVpn :=
  (machine twoOffers {} .DISCONNECTED none).run
    (openVTool "10.0.0.1" ++ [.setVpnStateData .CONNECTED])

/-- The offer with the number 3 fails, and the other one loads. -/
theorem waterfall_twoOffers :
    let M := withTwoOffers.loading .result_type
    let es := [.adFailedToLoad 0, .adLoaded 0]
    Waterfall .result_type
      (sortedByDescending [⟨"1", 2, "native", []⟩, ⟨"2", 3, "interstitial", []⟩])
      (fun k => k = 1) (M.run es)
      (issued .result_type withTwoOffers (.loadAd .result_type) ++
        M.outputs (issued .result_type) es)
      (M.outputs (answers .result_type) es).length := by
  refine (waterfall_run withTwoOffers .result_type _ (fun k => k = 1)
    [.adFailedToLoad 0, .adLoaded 0] rfl (by decide) rfl rfl rfl
    ⟨by decide, by decide, by decide, by decide⟩ ?_).2
  refine Machine.everyStep_iff.mpr ⟨⟨⟨by decide, by decide, by decide, by decide⟩, True.intro, ?_⟩,
    ⟨⟨by decide, by decide, by decide, by decide⟩, True.intro, ?_⟩, True.intro⟩
  · intro r hr _
    have hindex : (withTwoOffers.step (.loadAd .result_type)).requests[0]?.map AdRequest.index =
        some 0 := by decide
    have hzero : r.index = 0 :=
      Option.some.inj ((congrArg (Option.map AdRequest.index) hr).symm.trans hindex)
    simp [hzero]
  · intro r hr _
    have hindex : ((withTwoOffers.step (.loadAd .result_type)).step
        (.adFailedToLoad 0)).requests[0]?.map AdRequest.index = some 1 := by decide
    have hone : r.index = 1 :=
      Option.some.inj ((congrArg (Option.map AdRequest.index) hr).symm.trans hindex)
    simp [hone]

/-- A load that is called while the ad has been asked for makes no request. -/
theorem not_waterfall :
    ¬ ∀ (s : FastVpn) (adType : AdType) (adList : List AdEasy) (loads : Nat → Bool)
      (es : List Event), s.surroundings.adListData.listOf adType = some adList →
        (∀ adEasy ∈ adList, (formatOf adEasy.easy_ty).isSome = true) →
        s.adManager.adCache adType = none → (s.startLoad adType).GatesOpen adType →
        (s.loading adType).EveryStep (Undisturbed adType loads) es →
        Waterfall adType (sortedByDescending adList) loads ((s.loading adType).run es)
          (issued adType s (.loadAd adType) ++ (s.loading adType).outputs (issued adType) es)
          ((s.loading adType).outputs (answers adType) es).length := by
  intro h
  have hwaterfall := h (withTwoOffers.step (.loadAd .result_type)) .result_type _ (fun _ => true)
    [] rfl (by decide) rfl ⟨by decide, by decide, by decide, by decide⟩
    fun before _ _ heq => by simp at heq
  have hnone : issued .result_type (withTwoOffers.step (.loadAd .result_type))
      (.loadAd .result_type) = [] := by decide
  rw [hnone] at hwaterfall
  cases hwaterfall with
  | waiting n r reached => exact nomatch reached.last
  | loaded n r reached => exact nomatch reached.last
  | exhausted offers answerCount_eq => exact nomatch answerCount_eq

end FastVpn

end OpenVpnAndroid
