/-
  OpenVpnAndroid/LogTruncation.lean
  =================================
  **The log file without its end.**

  At the end of the stream `read()` is -1.  `readCacheContents` puts it into the
  record as the byte 0xFF, so a record that was cut off has its length, and
  `LogItem(byte[], int)` decides if it is an item.

  It mostly is none: a length, a number of arguments or a type that ends in 0xFF is
  refused, and so is everything behind it.  The exception is the end of the last
  argument, where any bytes are a value (`unmarschal_filled`).  Then the reader adds
  an item that was never logged (`restores_complete_iff`).
-/
import OpenVpnAndroid.LogFraming

namespace OpenVpnAndroid

namespace LogItem

/-! ### Bytes that were lost -/

/-- The last `k` bytes as they are read behind the end of the stream. -/
def filled (bytes : List UInt8) (k : Nat) : List UInt8 :=
  bytes.take (bytes.length - k) ++ List.replicate k 0xFF

/-- Nothing but bytes from behind the end. -/
def Lost (s : List UInt8) : Prop := ∀ b ∈ s, b = 0xFF

theorem lost_replicate (n : Nat) : Lost (List.replicate n 0xFF) :=
  fun _ hb => List.eq_of_mem_replicate hb

theorem Lost.drop {s : List UInt8} (h : Lost s) (n : Nat) : Lost (s.drop n) :=
  fun b hb => h b (List.mem_of_mem_drop hb)

theorem Lost.append {s t : List UInt8} (hs : Lost s) (ht : Lost t) : Lost (s ++ t) :=
  fun b hb => (List.mem_append.mp hb).elim (hs b) (ht b)

theorem length_filled {bytes : List UInt8} {k : Nat} (h : k ≤ bytes.length) :
    (filled bytes k).length = bytes.length := by
  rw [filled, List.length_append, List.length_take, List.length_replicate]
  omega

theorem filled_append {xs ys : List UInt8} {k : Nat} (h : k ≤ ys.length) :
    filled (xs ++ ys) k = xs ++ filled ys k := by
  rw [filled, filled, List.length_append, Nat.add_sub_assoc h, List.take_length_add_append,
    List.append_assoc]

theorem filled_append_of_le {xs ys : List UInt8} {k : Nat} (h : ys.length ≤ k) :
    filled (xs ++ ys) k =
      filled xs (k - ys.length) ++ List.replicate ys.length 0xFF := by
  have htake : (xs ++ ys).length - k = xs.length - (k - ys.length) := by
    rw [List.length_append]
    omega
  have hones : List.replicate k (0xFF : UInt8) =
      List.replicate (k - ys.length) 0xFF ++ List.replicate ys.length 0xFF := by
    rw [List.replicate_append_replicate, Nat.sub_add_cancel h]
  rw [filled, filled, htake, hones, List.take_append_of_le_length (Nat.sub_le _ _),
    List.append_assoc]

theorem drop_filled_append {bytes : List UInt8} {k : Nat} (h : k ≤ bytes.length)
    (rest : List UInt8) : (filled bytes k ++ rest).drop bytes.length = rest :=
  List.drop_left' (length_filled h)

/-- The byte at `n` is lost, or there is none. -/
def LostAt (s : List UInt8) (n : Nat) : Prop := ∀ b, s[n]? = some b → b = 0xFF

theorem Lost.at {s : List UInt8} (h : Lost s) (n : Nat) : LostAt s n :=
  fun b hb => h b (List.mem_of_getElem? hb)

theorem lostAt_filled {bytes : List UInt8} {k n : Nat} (hlength : bytes.length = n + 1)
    (hpos : 0 < k) (hk : k ≤ bytes.length) (rest : List UInt8) :
    LostAt (filled bytes k ++ rest) n := by
  intro b hb
  rw [List.getElem?_append_left (by rw [length_filled hk]; omega), filled,
    List.getElem?_append_right (by rw [List.length_take]; omega)] at hb
  exact List.eq_of_mem_replicate (List.mem_of_getElem? hb)

/-- A number that ends in a lost byte. -/
theorem value_take_lost {s : List UInt8} {n : Nat} (h : LostAt s n) (hlength : n + 1 ≤ s.length) :
    BigEndian.value (s.take (n + 1)) % 256 = 255 := by
  have hbyte : s[n]? = some 0xFF := by
    obtain ⟨b, hb⟩ : ∃ b, s[n]? = some b := ⟨_, List.getElem?_eq_getElem hlength⟩
    rw [hb, h b hb]
  rw [List.take_add_one, hbyte, Option.toList_some, BigEndian.value_append]
  simp [BigEndian.value]

/-! ### What is refused -/

theorem after_bytes (n : Nat) (s : List UInt8) :
    After (Get.bytes n) s fun b rest => b = s.take n ∧ rest = s.drop n ∧ n ≤ s.length := by
  intro b rest hrun
  simp only [Get.bytes, StateT.run] at hrun
  split at hrun
  · rename_i hle
    cases hrun
    exact ⟨rfl, rfl, hle⟩
  · cases hrun

theorem after_int (s : List UInt8) :
    After Get.int s fun v rest =>
      v = Int32.ofBitVec (BitVec.ofNat 32 (BigEndian.value (s.take 4))) ∧
        rest = s.drop 4 ∧ 4 ≤ s.length := by
  refine (after_bytes 4 s).bind fun b rest hb => After.pure ?_
  rw [hb.1]
  exact ⟨rfl, hb.2⟩

theorem after_long (s : List UInt8) : After Get.long s fun _ rest => rest = s.drop 8 :=
  (after_bytes 8 s).bind fun _ _ hb => After.pure hb.2.1

theorem after_remaining (s : List UInt8) : After Get.remaining s fun n rest =>
    n = s.length ∧ rest = s := by
  intro n rest hrun
  cases hrun
  exact ⟨rfl, rfl⟩

/-- No number of arguments ends in 0xFF. -/
theorem toInt_of_lost {m : Nat} (h : m % 256 = 255) :
    (Int32.ofBitVec (BitVec.ofNat 32 m)).toInt < 0 ∨
      30 < (Int32.ofBitVec (BitVec.ofNat 32 m)).toInt := by
  have hint : (Int32.ofBitVec (BitVec.ofNat 32 m)).toInt = (m : Int).bmod (2 ^ 32) :=
    BitVec.toInt_ofNat' _
  rw [hint, Int.bmod]
  split <;> omega

theorem fails_args {s : List UInt8} (h : LostAt s 3) : Fails unmarschalArgs s := by
  refine (after_int s).bind fun numArgs rest hnum => ?_
  have hlost := toInt_of_lost (value_take_lost h hnum.2.2)
  rw [← hnum.1] at hlost
  refine After.ite (fun _ => After.throw _ _ _) fun hle => ?_
  refine After.ite (fun hzero => ?_) fun _ => ?_
  · rw [hzero] at hlost
    exact absurd hlost (by decide)
  · refine After.ite (fun _ => After.throw _ _ _) fun hnonneg => ?_
    exact absurd hlost (not_or.mpr ⟨hnonneg, hle⟩)

/-- No type ends in 0xFF. -/
theorem fails_arg {s : List UInt8} (h : LostAt s 1) : Fails unmarschalArg s := by
  refine After.bind (Q := fun type _ => type % 256 = 255) ?_ fun type rest htype => ?_
  · refine (after_bytes 2 s).bind fun b rest hb => After.pure ?_
    rw [hb.1]
    exact value_take_lost h hb.2.2
  · unfold unmarschalValue
    refine After.ite (fun heq => absurd (heq ▸ htype) (by decide)) fun _ => ?_
    refine After.ite (fun heq => absurd (heq ▸ htype) (by decide)) fun _ => ?_
    refine After.ite (fun heq => absurd (heq ▸ htype) (by decide)) fun _ => ?_
    refine After.ite (fun heq => absurd (heq ▸ htype) (by decide)) fun _ => ?_
    refine After.ite (fun heq => absurd (heq ▸ htype) (by decide)) fun _ => ?_
    exact After.ite (fun heq => absurd (heq ▸ htype) (by decide)) fun _ => After.throw _ _ _

theorem after_array {s : List UInt8} (h : Lost s) (len : Int32) :
    After (getArray len) s fun _ rest => Lost rest := by
  refine After.ite (fun _ => After.throw _ _ _) fun _ b rest hrun => ?_
  rw [(after_bytes _ s b rest hrun).2.1]
  exact h.drop _

/-- An array of known length in front of lost bytes. -/
theorem after_array_length {ys rest : List UInt8} (hcap : ys.length ≤ CAPACITY) (h : Lost rest) :
    After (getArray (Int32.ofNat ys.length)) (ys ++ rest) fun _ rest' => Lost rest' := by
  intro b rest' hrun
  rw [(reads_array hcap) rest] at hrun
  cases hrun
  exact h

theorem after_message_lost {s : List UInt8} (h : Lost (s.drop 4)) :
    After unmarschalMessage s fun _ rest => Lost rest := by
  refine (after_int s).bind fun len rest hlen => ?_
  rw [hlen.2.1]
  refine After.ite (fun _ => After.pure h) fun _ => ?_
  refine (after_remaining _).bind fun remaining rest' hrest' => ?_
  rw [hrest'.2]
  refine After.ite (fun _ => After.throw _ _ _) fun _ => ?_
  exact (after_array h len).bind fun _ _ hlost => After.pure hlost

theorem after_message_length {ys rest : List UInt8} (hcap : ys.length ≤ CAPACITY)
    (h : Lost rest) :
    After unmarschalMessage (putLength ys.length ++ (ys ++ rest)) fun _ rest' => Lost rest' := by
  refine (reads_length ys.length).after_bind ?_
  refine After.ite (fun hzero => After.pure ?_) fun _ => ?_
  · have hnil : ys = [] := by
      by_contra hne
      exact ofNat_length_ne_zero (List.length_pos_iff.mpr hne) hcap hzero
    rw [hnil]
    exact h
  · refine (after_remaining _).bind fun remaining rest' hrest' => ?_
    rw [hrest'.2]
    refine After.ite (fun _ => After.throw _ _ _) fun _ => ?_
    exact (after_array_length hcap h).bind fun _ _ hlost => After.pure hlost

/-- The bytes of a string, of which the last ones are lost. -/
theorem filled_string {str : JavaString} {k : Nat} (hk : k ≤ (marschalString str).length)
    (rest : List UInt8) (hrest : Lost rest) :
    (∃ ys : List UInt8, ys.length = str.getBytes.length ∧
        filled (marschalString str) k ++ rest = putLength ys.length ++ (ys ++ rest)) ∨
      Lost ((filled (marschalString str) k ++ rest).drop 4) := by
  rw [marschalString]
  by_cases hcontent : k ≤ str.getBytes.length
  · left
    refine ⟨filled str.getBytes k, length_filled hcontent, ?_⟩
    rw [filled_append hcontent, length_filled hcontent, List.append_assoc]
  · right
    have hle : str.getBytes.length ≤ k := by omega
    have hlength : (putLength str.getBytes.length).length = 4 := BigEndian.length_bigEndian 4 _
    have hlost : k - str.getBytes.length ≤ (putLength str.getBytes.length).length := by
      rw [marschalString, List.length_append] at hk
      omega
    rw [filled_append_of_le hle, List.append_assoc, ← hlength, drop_filled_append hlost]
    exact (lost_replicate _).append hrest

/-- Whatever was the value of an argument, only lost bytes are behind it. -/
theorem after_value (o : LogArg) {k : Nat} (hk : k ≤ (argValue o).length)
    (hcap : (argValue o).length ≤ CAPACITY) {rest : List UInt8} (hrest : Lost rest) :
    After (unmarschalValue (typeChar o).toNat) (filled (argValue o) k ++ rest)
      fun _ rest' => Lost rest' := by
  have hstring : ∀ str : JavaString, k ≤ (marschalString str).length →
      (marschalString str).length ≤ CAPACITY →
      After unmarschalString (filled (marschalString str) k ++ rest) fun _ rest' =>
        Lost rest' := by
    intro str hk hcap
    rcases filled_string hk rest hrest with ⟨ys, hlength, hfilled⟩ | hlost
    · rw [hfilled]
      have hys : ys.length ≤ CAPACITY := hlength ▸ Nat.le_trans (getBytes_le str) hcap
      refine (reads_length ys.length).after_bind ?_
      exact (after_array_length hys hrest).bind fun _ _ h => After.pure h
    · refine (after_int _).bind fun len rest' hlen => ?_
      rw [hlen.2.1]
      exact (after_array hlost len).bind fun _ _ h => After.pure h
  have hnumber : ∀ w : Nat, (argValue o).length = w →
      After (Get.bytes w) (filled (argValue o) k ++ rest) fun _ rest' => Lost rest' := by
    intro w hw b rest' hrun
    rw [(after_bytes w _ b rest' hrun).2.1, ← hw, drop_filled_append hk]
    exact hrest
  cases o with
  | string s => exact (hstring s hk hcap).bind fun _ _ h => After.pure h
  | other object s => exact (hstring s hk hcap).bind fun _ _ h => After.pure h
  | integer n =>
      exact ((hnumber 4 (BigEndian.length_bigEndian 4 _)).bind fun _ _ h => After.pure h).bind
        fun _ _ h => After.pure h
  | float bits =>
      exact ((hnumber 4 (BigEndian.length_bigEndian 4 _)).bind fun _ _ h => After.pure h).bind
        fun _ _ h => After.pure h
  | double bits =>
      exact ((hnumber 8 (BigEndian.length_bigEndian 8 _)).bind fun _ _ h => After.pure h).bind
        fun _ _ h => After.pure h
  | long n =>
      exact ((hnumber 8 (BigEndian.length_bigEndian 8 _)).bind fun _ _ h => After.pure h).bind
        fun _ _ h => After.pure h
  | null =>
      have hzero : k = 0 := Nat.le_zero.mp hk
      subst hzero
      exact After.pure hrest

/-- Whatever was an argument that lost a byte. -/
theorem after_arg (o : LogArg) {k : Nat} (hk : k ≤ (marschalArg o).length)
    (hcap : (argValue o).length ≤ CAPACITY) {rest : List UInt8} (hrest : Lost rest) :
    After unmarschalArg (filled (marschalArg o) k ++ rest) fun _ rest' => Lost rest' := by
  have htype : (putChar (typeChar o)).length = 2 := BigEndian.length_bigEndian 2 _
  rw [marschalArg] at hk ⊢
  rw [List.length_append] at hk
  by_cases hvalue : k ≤ (argValue o).length
  · rw [filled_append hvalue, List.append_assoc]
    exact (reads_char (typeChar_lt o)).after_bind (after_value o hvalue hcap hrest)
  · have hle : (argValue o).length ≤ k := Nat.le_of_lt (Nat.not_le.mp hvalue)
    rw [filled_append_of_le hle, List.append_assoc]
    have hfails := fails_arg (lostAt_filled htype (Nat.sub_pos_of_lt (Nat.not_le.mp hvalue))
      (by omega) (List.replicate (argValue o).length 0xFF ++ rest))
    exact fun a rest' hrun => (hfails a rest' hrun).elim

/-! ### What is accepted -/

/-- The bytes at the end of an argument that any bytes can take the place of.  A
    length that ends in 0xFF has the lost byte already. -/
def tailLength : LogArg → Nat
  | .string s => s.getBytes.length + if s.getBytes.length % 256 = 255 then 1 else 0
  | .other _ s => s.getBytes.length + if s.getBytes.length % 256 = 255 then 1 else 0
  | o => (argValue o).length

theorem tailLength_le (o : LogArg) : tailLength o ≤ (argValue o).length := by
  have hstring : ∀ s : JavaString,
      s.getBytes.length + (if s.getBytes.length % 256 = 255 then 1 else 0) ≤
        (marschalString s).length := by
    intro s
    rw [marschalString, List.length_append, putLength, putInt, BigEndian.length_bigEndian]
    split <;> omega
  cases o with
  | string s => exact hstring s
  | other object s => exact hstring s
  | integer n => exact Nat.le_refl _
  | float bits => exact Nat.le_refl _
  | double bits => exact Nat.le_refl _
  | long n => exact Nat.le_refl _
  | null => exact Nat.le_refl _

theorem putLength_eq {n : Nat} (h : n ≤ CAPACITY) : putLength n = bigEndian 4 n := by
  have hlt : n < 2 ^ 32 := Nat.lt_of_le_of_lt h (by decide)
  have hnat : (Int32.ofNat n).toBitVec.toNat = n := Nat.mod_eq_of_lt hlt
  rw [putLength, putInt, hnat]

/-- The number of bytes is the right one in spite of the lost ones. -/
theorem toInt_filled_length {n j : Nat} (hn : n ≤ CAPACITY) (hpos : 0 < j) (hj : j ≤ 4) :
    (Int32.ofBitVec (BitVec.ofNat 32 (BigEndian.value (filled (putLength n) j)))).toInt = n ↔
      j ≤ if n % 256 = 255 then 1 else 0 := by
  have hcap : n ≤ 16384 := hn
  have hvalue : BigEndian.value (filled (putLength n) j) + 1 = (n / 256 ^ j + 1) * 256 ^ j := by
    have h := BigEndian.value_filled 4 n (4 - j) (Nat.lt_of_le_of_lt hn (by decide))
    rw [Nat.sub_sub_self hj] at h
    rw [filled, putLength_eq hn, BigEndian.length_bigEndian]
    exact h
  have hint : (Int32.ofBitVec (BitVec.ofNat 32 (BigEndian.value (filled (putLength n) j)))).toInt =
      (BigEndian.value (filled (putLength n) j) : Int).bmod (2 ^ 32) :=
    BitVec.toInt_ofNat' _
  rw [hint]
  generalize BigEndian.value (filled (putLength n) j) = v at hvalue
  rw [Int.bmod]
  have hcases : j = 1 ∨ j = 2 ∨ j = 3 ∨ j = 4 := by omega
  rcases hcases with rfl | rfl | rfl | rfl <;> split <;> split <;> omega

theorem exists_run_array (len : Int32) (ys : List UInt8) :
    (∃ b, (getArray len).run ys = .ok (b, [])) ↔ len.toInt = ys.length := by
  rw [getArray]
  split
  · rename_i hneg
    constructor
    · rintro ⟨_, h⟩
      cases h
    · omega
  · rename_i hnonneg
    simp only [Get.bytes, StateT.run]
    split
    · rename_i hle
      simp only [Except.ok.injEq, Prod.mk.injEq, exists_eq_left', List.drop_eq_nil_iff]
      omega
    · rename_i hlt
      constructor
      · rintro ⟨_, h⟩
        cases h
      · omega

theorem exists_run_string {str : JavaString} {k : Nat} (hk : k ≤ (marschalString str).length)
    (hcap : str.getBytes.length ≤ CAPACITY) :
    (∃ s, unmarschalString.run (filled (marschalString str) k) = .ok (s, [])) ↔
      k ≤ str.getBytes.length + if str.getBytes.length % 256 = 255 then 1 else 0 := by
  have hhead : (putLength str.getBytes.length).length = 4 := BigEndian.length_bigEndian 4 _
  rw [marschalString, List.length_append] at hk
  rw [marschalString]
  by_cases hcontent : k ≤ str.getBytes.length
  · rw [filled_append hcontent]
    have hlength := toInt_ofNat_length hcap
    have harray : ∃ b, (getArray (Int32.ofNat str.getBytes.length)).run
        (filled str.getBytes k) = .ok (b, []) := by
      rw [exists_run_array, length_filled hcontent, hlength]
    rw [unmarschalString, (reads_length _).run_bind, exists_run_map]
    exact iff_of_true harray (Nat.le_trans hcontent (Nat.le_add_right _ _))
  · have hlt := Nat.not_le.mp hcontent
    rw [filled_append_of_le (Nat.le_of_lt hlt)]
    have hread : Reads Get.int (filled (putLength str.getBytes.length) (k - str.getBytes.length))
        (Int32.ofBitVec (BitVec.ofNat 32 (BigEndian.value
          (filled (putLength str.getBytes.length) (k - str.getBytes.length))))) := by
      refine (reads_bytes ?_).map (Reads.pure _)
      rw [length_filled (by omega), hhead]
    rw [unmarschalString, hread.run_bind, exists_run_map, exists_run_array,
      List.length_replicate, toInt_filled_length hcap (Nat.sub_pos_of_lt hlt) (by omega)]
    omega

theorem exists_run_value (o : LogArg) {k : Nat} (hk : k ≤ (argValue o).length)
    (hcap : (argValue o).length ≤ CAPACITY) :
    (∃ a, (unmarschalValue (typeChar o).toNat).run (filled (argValue o) k) = .ok (a, [])) ↔
      k ≤ tailLength o := by
  have hbytes : ∀ w : Nat, (argValue o).length = w →
      Reads (Get.bytes w) (filled (argValue o) k) (filled (argValue o) k) := by
    intro w hw
    exact reads_bytes ((length_filled hk).trans hw)
  cases o with
  | string s =>
      exact (exists_run_map unmarschalString LogArg.string _ _).trans
        (exists_run_string hk (Nat.le_trans (getBytes_le s) hcap))
  | other object s =>
      exact (exists_run_map unmarschalString LogArg.string _ _).trans
        (exists_run_string hk (Nat.le_trans (getBytes_le s) hcap))
  | integer n =>
      have h := hbytes 4 (BigEndian.length_bigEndian 4 _)
      refine iff_of_true ((exists_run_map Get.int LogArg.integer _ _).mpr ?_) hk
      exact (exists_run_map (Get.bytes 4) _ _ _).mpr ⟨_, h.run⟩
  | float bits =>
      have h := hbytes 4 (BigEndian.length_bigEndian 4 _)
      refine iff_of_true ((exists_run_map (Get.bits 4) LogArg.float _ _).mpr ?_) hk
      exact (exists_run_map (Get.bytes 4) _ _ _).mpr ⟨_, h.run⟩
  | double bits =>
      have h := hbytes 8 (BigEndian.length_bigEndian 8 _)
      refine iff_of_true ((exists_run_map (Get.bits 8) LogArg.double _ _).mpr ?_) hk
      exact (exists_run_map (Get.bytes 8) _ _ _).mpr ⟨_, h.run⟩
  | long n =>
      have h := hbytes 8 (BigEndian.length_bigEndian 8 _)
      refine iff_of_true ((exists_run_map Get.long LogArg.long _ _).mpr ?_) hk
      exact (exists_run_map (Get.bytes 8) _ _ _).mpr ⟨_, h.run⟩
  | null =>
      have hzero : k = 0 := Nat.le_zero.mp hk
      subst hzero
      exact iff_of_true ⟨_, rfl⟩ hk

theorem exists_run_arg (o : LogArg) {k : Nat} (hk : k ≤ (marschalArg o).length)
    (hcap : (argValue o).length ≤ CAPACITY) :
    (∃ a, unmarschalArg.run (filled (marschalArg o) k) = .ok (a, [])) ↔ k ≤ tailLength o := by
  have htype : (putChar (typeChar o)).length = 2 := BigEndian.length_bigEndian 2 _
  rw [marschalArg, List.length_append] at hk
  rw [marschalArg]
  by_cases hvalue : k ≤ (argValue o).length
  · rw [filled_append hvalue, unmarschalArg, (reads_char (typeChar_lt o)).run_bind]
    exact exists_run_value o hvalue hcap
  · have hlt := Nat.not_le.mp hvalue
    rw [filled_append_of_le (Nat.le_of_lt hlt)]
    have hfails := fails_arg (lostAt_filled htype (Nat.sub_pos_of_lt hlt) (by omega)
      (List.replicate (argValue o).length 0xFF))
    refine iff_of_false ?_ (Nat.not_le.mpr (Nat.lt_of_le_of_lt (tailLength_le o) hlt))
    rintro ⟨a, hrun⟩
    exact hfails a [] hrun

theorem length_marschalArg_le {o : LogArg} {args : List LogArg} (h : o ∈ args) :
    (marschalArg o).length ≤ (args.flatMap marschalArg).length := by
  obtain ⟨before, after, rfl⟩ := List.append_of_mem h
  simp only [List.flatMap_append, List.flatMap_cons, List.length_append]
  omega

/-- Arguments that lost a byte are read if only the last one did, at its end. -/
theorem exists_run_loop (args : List LogArg) {k : Nat} (hpos : 0 < k)
    (hk : k ≤ (args.flatMap marschalArg).length)
    (hcap : (args.flatMap marschalArg).length ≤ CAPACITY) :
    (∃ as, (unmarschalLoop args.length).run (filled (args.flatMap marschalArg) k) =
        .ok (as, [])) ↔
      ∃ o, args.getLast? = some o ∧ k ≤ tailLength o := by
  induction args with
  | nil => exact absurd hpos (Nat.not_lt.mpr hk)
  | cons o args ih =>
      rw [List.flatMap_cons, List.length_append] at hk hcap
      have hvalue : (argValue o).length ≤ CAPACITY :=
        Nat.le_trans (argValue_le o) (Nat.le_trans (Nat.le_add_right _ _) hcap)
      rw [List.flatMap_cons, List.length_cons, unmarschalLoop]
      by_cases hlater : k ≤ (args.flatMap marschalArg).length
      · have hne : args ≠ [] := by
          rintro rfl
          exact absurd hpos (Nat.not_lt.mpr hlater)
        have hlast : (o :: args).getLast? = args.getLast? := by
          cases args with
          | nil => exact absurd rfl hne
          | cons o' args => rw [List.getLast?_cons_cons]
        have harg : Reads unmarschalArg (marschalArg o) (recordedArg o) := by
          have h := reads_arg (faithful_recordedArg o)
            (by rw [marschalArg_recorded]; exact Nat.le_trans (Nat.le_add_right _ _) hcap)
          rwa [marschalArg_recorded] at h
        rw [filled_append hlater, harg.run_bind, exists_run_map, hlast]
        exact ih hlater (Nat.le_trans (Nat.le_add_left _ _) hcap)
      · have hlt := Nat.not_le.mp hlater
        rw [filled_append_of_le (Nat.le_of_lt hlt)]
        cases args with
        | nil =>
            have hloop := exists_run_map unmarschalArg (fun a => [a])
              (filled (marschalArg o) k) []
            have ho := exists_run_arg o hk hvalue
            simpa [unmarschalLoop] using hloop.trans ho
        | cons o' args =>
            have hfails : Fails (unmarschalArg >>= fun arg =>
                unmarschalLoop (args.length + 1) >>= fun as => pure (arg :: as))
                (filled (marschalArg o) (k - ((o' :: args).flatMap marschalArg).length) ++
                  List.replicate ((o' :: args).flatMap marschalArg).length 0xFF) := by
              refine (after_arg o (by omega) hvalue (lost_replicate _)).bind fun a rest hlost => ?_
              exact ((fails_arg (hlost.at 1)).bind _).bind _
            refine iff_of_false (fun ⟨as, hrun⟩ => hfails as [] hrun) ?_
            rintro ⟨a, hlast, hle⟩
            have hmem : a ∈ o' :: args := by
              rw [List.getLast?_cons_cons] at hlast
              exact List.mem_of_getLast? hlast
            have hpart := length_marschalArg_le hmem
            have htail := Nat.le_trans (tailLength_le a) (argValue_le a)
            omega

theorem exists_run_args (mArgs : Option (List LogArg)) {k : Nat} (hpos : 0 < k)
    (hk : k ≤ (marschalArgs mArgs).length) (hcap : (marschalArgs mArgs).length ≤ CAPACITY) :
    (∃ as, unmarschalArgs.run (filled (marschalArgs mArgs) k) = .ok (as, [])) ↔
      (mArgs.getD []).length ≤ 30 ∧
        ∃ o, (mArgs.getD []).getLast? = some o ∧ k ≤ tailLength o := by
  have hnum : (putLength (mArgs.getD []).length).length = 4 := BigEndian.length_bigEndian 4 _
  rw [marschalArgs_eq] at hk hcap ⊢
  rw [List.length_append] at hk hcap
  generalize mArgs.getD [] = args at hk hcap hnum ⊢
  by_cases hvalues : k ≤ (args.flatMap marschalArg).length
  · rw [filled_append hvalues]
    by_cases hmany : args.length ≤ 30
    · have hcount : args.length ≤ CAPACITY := Nat.le_trans hmany (by decide)
      have hne : 0 < args.length := by
        rw [List.length_pos_iff]
        rintro rfl
        exact absurd hpos (Nat.not_lt.mpr hvalues)
      rw [unmarschalArgs, (reads_length _).run_bind, toInt_ofNat_length hcount,
        if_neg (by omega), if_neg (ofNat_length_ne_zero hne hcount), if_neg (by omega),
        Int.toNat_natCast, exists_run_map,
        exists_run_loop args hpos hvalues (Nat.le_trans (Nat.le_add_left _ _) hcap)]
      exact (and_iff_right hmany).symm
    · have hcount : args.length ≤ CAPACITY := by
        have hle := length_le_flatMap_marschalArg args
        omega
      have hfails := fails_args_many (Nat.not_le.mp hmany) hcount
        (filled (args.flatMap marschalArg) k)
      exact iff_of_false (fun ⟨as, hrun⟩ => hfails as [] hrun) fun h => hmany h.1
  · have hlt := Nat.not_le.mp hvalues
    rw [filled_append_of_le (Nat.le_of_lt hlt)]
    have hfails := fails_args (lostAt_filled hnum (Nat.sub_pos_of_lt hlt) (by omega)
      (List.replicate (args.flatMap marschalArg).length 0xFF))
    refine iff_of_false (fun ⟨as, hrun⟩ => hfails as [] hrun) ?_
    rintro ⟨-, o, hlast, hle⟩
    have hpart := length_marschalArg_le (List.mem_of_getLast? hlast)
    have htail := Nat.le_trans (tailLength_le o) (argValue_le o)
    omega

/-- The item is read without its last `k` bytes. -/
structure ReadWithout (li : LogItem) (k : Nat) : Prop where
  count : (li.mArgs.getD []).length ≤ 30
  tail : ∃ o, (li.mArgs.getD []).getLast? = some o ∧ k ≤ tailLength o

theorem after_finish (s : List UInt8) : After finish s fun _ rest => s = [] ∧ rest = [] := by
  refine (after_remaining s).bind fun n rest h => ?_
  rw [h.2, h.1]
  refine After.ite (fun _ => After.throw _ _ _) fun hzero => After.pure ?_
  exact and_self_iff.mpr (List.length_eq_zero_iff.mp (not_not.mp hzero))

theorem ReadWithout.le {li : LogItem} {k : Nat} (h : li.ReadWithout k) :
    k ≤ (marschalArgs li.mArgs).length := by
  obtain ⟨o, hlast, hle⟩ := h.tail
  have hpart := length_marschalArg_le (List.mem_of_getLast? hlast)
  have htail := Nat.le_trans (tailLength_le o) (argValue_le o)
  rw [marschalArgs_eq, List.length_append]
  omega

theorem fails_rest {s : List UInt8}
    (h : After unmarschalMessage s fun _ rest => Lost rest)
    (logtime : Int64) (mVerbosityLevel level mRessourceId : Int32) :
    Fails (unmarschalRest logtime mVerbosityLevel level mRessourceId) s :=
  h.bind fun _ _ hlost => (fails_args (hlost.at 3)).bind _

/-- Nothing but the header. -/
theorem fails_header {s : List UInt8} (h : Lost (s.drop 21)) : Fails unmarschal s := by
  unfold unmarschal
  refine (after_bytes 1 s).bind fun version rest hversion => ?_
  refine (after_long rest).bind fun logtime rest' hlogtime => ?_
  refine (after_int rest').bind fun verbosity rest hverbosity => ?_
  refine (after_int rest).bind fun level rest' hlevel => ?_
  refine (after_int rest').bind fun id rest hid => ?_
  have hrest : rest = s.drop 21 := by
    rw [hid.2.1, hlevel.2.1, hverbosity.2.1, hlogtime, hversion.2.1, List.drop_drop,
      List.drop_drop, List.drop_drop, List.drop_drop]
  refine fails_rest (after_message_lost ?_) _ _ _ _
  rw [hrest]
  exact h.drop 4

theorem fails_message {li : LogItem} {level : LogLevel} {k : Nat}
    (hargs : (marschalArgs li.mArgs).length < k) (hk : k ≤ (li.marschaled level).length)
    (hcap : (li.marschaled level).length ≤ CAPACITY) :
    Fails unmarschal (filled (li.marschaled level) k) := by
  have hheader : (li.marschalHeader level).length = 21 := rfl
  rw [marschaled, List.length_append, hheader, List.length_append, marschalMessage_eq] at hk hcap
  rw [marschaled]
  by_cases hmessage : k ≤ (marschalMessage li.mMessage ++ marschalArgs li.mArgs).length
  · rw [filled_append hmessage, filled_append_of_le (Nat.le_of_lt hargs), marschalMessage_eq]
    rw [List.length_append, marschalMessage_eq] at hmessage
    have hlost : k - (marschalArgs li.mArgs).length ≤
        (marschalString (li.mMessage.getD [])).length := by omega
    have hstring := filled_string hlost _ (lost_replicate (marschalArgs li.mArgs).length)
    intro li' rest hrun
    rw [run_header] at hrun
    refine fails_rest ?_ _ _ _ _ li' rest hrun
    rcases hstring with ⟨ys, hlength, hys⟩ | hlost
    · rw [hys]
      have hle := getBytes_le (li.mMessage.getD [])
      exact after_message_length (by omega) (lost_replicate _)
    · exact after_message_lost hlost
  · have hlt := Nat.not_le.mp hmessage
    rw [List.length_append, marschalMessage_eq] at hlt
    rw [filled_append_of_le (Nat.le_of_not_le hmessage)]
    apply fails_header
    rw [← hheader, drop_filled_append (by
      rw [List.length_append, marschalMessage_eq, hheader]
      omega)]
    exact lost_replicate _

/-- The bytes of an item of which the last ones are lost. -/
theorem run_filled {li : LogItem} {level : LogLevel} {k : Nat} (hpos : 0 < k)
    (hk : k ≤ (li.marschaled level).length)
    (hcap : (li.marschaled level).length ≤ CAPACITY) :
    (li.ReadWithout k → ∃ as, unmarschal.run (filled (li.marschaled level) k) =
      .ok ({ li.recorded with mArgs := as, mLevel := some level }, [])) ∧
    (¬ li.ReadWithout k → Fails unmarschal (filled (li.marschaled level) k)) := by
  by_cases hargs : k ≤ (marschalArgs li.mArgs).length
  · have hcaps : (marschalMessage li.mMessage).length ≤ CAPACITY ∧
        (marschalArgs li.mArgs).length ≤ CAPACITY := by
      rw [marschaled, List.length_append, List.length_append] at hcap
      omega
    have hmessage : Reads unmarschalMessage (marschalMessage li.mMessage)
        li.recorded.mMessage := by
      have h := reads_message (message_recorded li) (by
        rw [marschalMessage_recorded]
        exact hcaps.1)
      rwa [marschalMessage_recorded] at h
    have hiff := exists_run_args li.mArgs hpos hargs hcaps.2
    rw [marschaled, filled_append (Nat.le_trans hargs (by
      rw [List.length_append]
      exact Nat.le_add_left _ _)), filled_append hargs]
    constructor
    · intro hwithout
      obtain ⟨as, hrun⟩ := hiff.mpr ⟨hwithout.count, hwithout.tail⟩
      refine ⟨as, ?_⟩
      rw [run_header, unmarschalRest, hmessage.run_bind, StateT.run_bind, hrun]
      simp only [LogLevel.getEnumByValue_getInt]
      rfl
    · intro hwithout li' rest hrun
      rw [run_header, unmarschalRest, hmessage.run_bind] at hrun
      have hleft : After unmarschalArgs (filled (marschalArgs li.mArgs) k)
          fun _ rest => rest ≠ [] := by
        rintro as rest' has rfl
        obtain ⟨hcount, htail⟩ := hiff.mp ⟨as, has⟩
        exact hwithout ⟨hcount, htail⟩
      exact After.bind (R := fun _ _ => False) hleft (fun as rest' hne =>
        (after_finish rest').bind fun _ _ hend => absurd hend.1 hne) li' rest hrun
  · refine ⟨fun h => absurd h.le hargs, fun _ => ?_⟩
    exact fails_message (Nat.not_le.mp hargs) hk hcap

/-- An item that is read back as an item. -/
structure Readable (li : LogItem) : Prop where
  count : (li.mArgs.getD []).length ≤ 30
  message : ¬ (li.mMessage = some [] ∧ li.mRessourceId = 0)

end LogItem

namespace LogFileHandler

/-! ### Restoring an item -/

def hexArray : Text := "0123456789ABCDEF"

def bytesToHex (bytes : List UInt8) (len : Nat) : Text :=
  (bytes.take len).flatMap fun b =>
    [hexArray.getD (b.toNat / 16) '0', hexArray.getD (b.toNat % 16) '0']

/-- What `restoreLogItem` tells `VpnStatus`. -/
inductive Restored where
  | newLogItem (li : LogItem)
  | logError (msg : Text)
deriving DecidableEq, Repr

def restoreLogItem (buf : List UInt8) (len : Int) : Except LogItemException Restored := do
  let li ← LogItem.ofBytes buf len
  if li.verify then return .newLogItem li
  else
    return .logError (("Could not read log item from file: " : Text) ++ decimal len ++
      (": " : Text) ++ bytesToHex buf (max len 80).toNat)

/-- The exception of `restoreLogItem`. -/
def restores (buf : List UInt8) (len : Int) : Option LogItemException :=
  match restoreLogItem buf len with
  | .ok _ => none
  | .error e => some e

/-- The item that an event adds to the log. -/
def added : CacheEvent → Option LogItem
  | .restoreLogItem buf len =>
      match restoreLogItem buf len with
      | .ok (.newLogItem li) => some li
      | .ok (.logError _) => none
      | .error _ => none
  | .logDebug _ => none
  | .logError _ => none
  | .reread _ => none

/-- The items that reading a file adds to the log, in order. -/
def restoredItems (file : List UInt8) : List LogItem :=
  (readCacheContents restores file).1.filterMap added

/-- An item that `writeLogItemToDisk` writes. -/
structure CachedItem where
  item : LogItem
  bytes : List UInt8
  encodes : item.getMarschaledBytes = .ok bytes
  verified : item.verify

def cacheFile (items : List CachedItem) : List UInt8 :=
  items.flatMap fun x => writeEscapedBytes x.bytes

/-- The items whose records are in front of the cut. -/
def complete : List CachedItem → Nat → List CachedItem
  | [], _ => []
  | x :: items, cut =>
      if (writeEscapedBytes x.bytes).length ≤ cut then
        x :: complete items (cut - (writeEscapedBytes x.bytes).length)
      else []

/-- The item whose record is cut, and the number of bytes left of it. -/
def cutOff : List CachedItem → Nat → Option (CachedItem × Nat)
  | [], _ => none
  | x :: items, cut =>
      if (writeEscapedBytes x.bytes).length ≤ cut then
        cutOff items (cut - (writeEscapedBytes x.bytes).length)
      else some (x, cut)

/-- The first `j` bytes of the record are read as an item: they are the header and the
    first bytes of the item, and the lost ones are at the end of its last argument. -/
def Misread (x : CachedItem) (j : Nat) : Prop :=
  ¬ (x.item.mMessage = some [] ∧ x.item.mRessourceId = 0) ∧
    ∃ m < x.bytes.length, j = 5 + ((x.bytes.take m).flatMap escapeByte).length ∧
      x.item.ReadWithout (x.bytes.length - m)

/-! ### The cut record -/

theorem CachedItem.marschaled (x : CachedItem) :
    ∃ level, x.item.mLevel = some level ∧ x.bytes = x.item.marschaled level ∧
      (x.item.marschaled level).length ≤ LogItem.CAPACITY :=
  LogItem.getMarschaledBytes_eq_ok.mp x.encodes

theorem CachedItem.fits (x : CachedItem) : x.bytes.length ≤ BUFFER_LENGTH := by
  obtain ⟨level, -, hbytes, hcap⟩ := x.marschaled
  rw [hbytes]
  exact hcap

theorem ofBytes_buf2 (bytes : List UInt8) :
    LogItem.ofBytes (buf2 bytes) bytes.length =
      (LogItem.unmarschal.run bytes).map Prod.fst := by
  have hlength : ¬ ((bytes.length : Int) < 0 ∨ ((buf2 bytes).length : Int) < bytes.length) := by
    rw [buf2, List.length_append]
    omega
  rw [LogItem.ofBytes, if_neg hlength, Int.toNat_natCast, buf2, List.take_left]

theorem readPayload_nil (n pos : Nat) (h : pos + n ≤ BUFFER_LENGTH) :
    readPayload n pos [] = .complete (List.replicate n 0xFF) [] := by
  induction n generalizing pos with
  | zero => rfl
  | succ n ih =>
      have hunit : unescape [] = .byte 0xFF [] := rfl
      have hpos : pos < BUFFER_LENGTH := by omega
      rw [readPayload, hunit]
      dsimp only
      rw [if_pos hpos, ih (pos + 1) (by omega), Payload.cons, List.replicate_succ]

/-- The cut is between two bytes of the item. -/
theorem readPayload_cut (bytes : List UInt8) (pos : Nat) {m : Nat} (hm : m ≤ bytes.length)
    (hfits : pos + bytes.length ≤ BUFFER_LENGTH) :
    readPayload bytes.length pos ((bytes.take m).flatMap escapeByte) =
      .complete (LogItem.filled bytes (bytes.length - m)) [] := by
  induction bytes generalizing pos m with
  | nil =>
      obtain rfl : m = 0 := Nat.le_zero.mp hm
      rfl
  | cons b bytes ih =>
      cases m with
      | zero =>
          rw [List.take_zero, List.flatMap_nil, readPayload_nil _ _ hfits, LogItem.filled,
            Nat.sub_zero, Nat.sub_self, List.take_zero, List.nil_append]
      | succ m =>
          rw [List.length_cons] at hm hfits
          have hpos : pos < BUFFER_LENGTH := by omega
          have hfilled : LogItem.filled (b :: bytes) (bytes.length - m) =
              b :: LogItem.filled bytes (bytes.length - m) :=
            @LogItem.filled_append [b] bytes _ (Nat.sub_le _ _)
          rw [List.take_succ_cons, List.flatMap_cons, List.length_cons, readPayload,
            unescape_escapeByte]
          dsimp only
          rw [if_pos hpos, ih (pos + 1) (Nat.le_of_succ_le_succ hm) (by omega), Payload.cons,
            Nat.add_sub_add_right, hfilled]

/-- The cut is between an escape byte and its successor. -/
theorem readPayload_escape (bytes : List UInt8) (pos : Nat) {m : Nat} (hm : m < bytes.length)
    (hfits : pos + bytes.length ≤ BUFFER_LENGTH) :
    readPayload bytes.length pos ((bytes.take m).flatMap escapeByte ++ [MAGIC_BYTE + 1]) =
      .badEscape 0xFF [] := by
  induction bytes generalizing pos m with
  | nil => cases hm
  | cons b bytes ih =>
      cases m with
      | zero =>
          have hunit : unescape [MAGIC_BYTE + 1] = .bad 0xFF [] := rfl
          rw [List.take_zero, List.flatMap_nil, List.nil_append, List.length_cons, readPayload,
            hunit]
      | succ m =>
          rw [List.length_cons] at hm hfits
          have hpos : pos < BUFFER_LENGTH := by omega
          rw [List.take_succ_cons, List.flatMap_cons, List.length_cons, List.append_assoc,
            readPayload, unescape_escapeByte]
          dsimp only
          rw [if_pos hpos, ih (pos + 1) (Nat.lt_of_succ_lt_succ hm) (by omega), Payload.cons]
          rintro _ _ hcomplete
          cases hcomplete

theorem take_escaped (bytes : List UInt8) {i : Nat} (h : i < (bytes.flatMap escapeByte).length) :
    (∃ m < bytes.length, i = ((bytes.take m).flatMap escapeByte).length ∧
        (bytes.flatMap escapeByte).take i = (bytes.take m).flatMap escapeByte) ∨
      ∃ m < bytes.length,
        (bytes.flatMap escapeByte).take i =
          (bytes.take m).flatMap escapeByte ++ [MAGIC_BYTE + 1] := by
  induction bytes generalizing i with
  | nil => cases h
  | cons b bytes ih =>
      rw [List.flatMap_cons, List.length_append] at h
      by_cases hfirst : i < (escapeByte b).length
      · have htake : ((b :: bytes).flatMap escapeByte).take i = (escapeByte b).take i := by
          rw [List.flatMap_cons, List.take_append_of_le_length (Nat.le_of_lt hfirst)]
        cases i with
        | zero => exact Or.inl ⟨0, Nat.succ_pos _, rfl, rfl⟩
        | succ i =>
            right
            refine ⟨0, Nat.succ_pos _, ?_⟩
            rw [htake]
            rw [escapeByte] at hfirst ⊢
            split at hfirst
            · rename_i hspecial
              rw [if_pos hspecial]
              obtain rfl : i = 0 := Nat.lt_one_iff.mp (Nat.lt_of_succ_lt_succ hfirst)
              rfl
            · simp at hfirst
      · have hle := Nat.not_lt.mp hfirst
        have htake : ((b :: bytes).flatMap escapeByte).take i =
            escapeByte b ++ (bytes.flatMap escapeByte).take (i - (escapeByte b).length) := by
          rw [List.flatMap_cons, List.take_append, List.take_of_length_le hle]
        rcases ih (i := i - (escapeByte b).length) (by omega) with
          ⟨m, hm, hi, hrest⟩ | ⟨m, hm, hrest⟩
        · left
          refine ⟨m + 1, Nat.succ_lt_succ hm, ?_, ?_⟩
          · rw [List.take_succ_cons, List.flatMap_cons, List.length_append, ← hi,
              Nat.add_sub_cancel' hle]
          · rw [htake, hrest, List.take_succ_cons, List.flatMap_cons]
        · right
          refine ⟨m + 1, Nat.succ_lt_succ hm, ?_⟩
          rw [htake, hrest, List.take_succ_cons, List.flatMap_cons, List.append_assoc]

theorem added_of_ok {bytes : List UInt8} {li : LogItem} {rest : List UInt8}
    (h : LogItem.unmarschal.run bytes = .ok (li, rest)) :
    restores (buf2 bytes) bytes.length = none ∧
      added (.restoreLogItem (buf2 bytes) bytes.length) = if li.verify then some li else none := by
  have hok : LogItem.ofBytes (buf2 bytes) bytes.length = .ok li := by
    rw [ofBytes_buf2, h]
    rfl
  rw [restores, added, restoreLogItem, hok]
  cases hverify : li.verify <;> simp [bind, Except.bind, pure, Except.pure, hverify]

theorem added_of_fails {bytes : List UInt8} (h : Fails LogItem.unmarschal bytes) :
    added (.restoreLogItem (buf2 bytes) bytes.length) = none := by
  have herror : ∃ e, LogItem.ofBytes (buf2 bytes) bytes.length = .error e := by
    rw [ofBytes_buf2]
    cases hrun : LogItem.unmarschal.run bytes with
    | error e => exact ⟨e, rfl⟩
    | ok r => exact absurd hrun (h.ne_ok r)
  obtain ⟨e, he⟩ := herror
  rw [added, restoreLogItem, he]
  rfl

/-- The loop adds nothing at the end of the stream. -/
theorem added_end (rounds : Nat) (buf : Buffer) (itemsRead : Nat) :
    (nextItem restores (rounds + 1) buf [] itemsRead).1.filterMap added = [] := rfl

theorem length_recordHeader (n : Nat) : (MAGIC_BYTE :: putLength n).length = 5 := by
  rw [List.length_cons, putLength, putInt, BigEndian.length_bigEndian]

theorem take_record (bytes : List UInt8) (i : Nat) :
    (writeEscapedBytes bytes).take (5 + i) =
      (MAGIC_BYTE :: putLength bytes.length) ++ (bytes.flatMap escapeByte).take i := by
  have hrecord : writeEscapedBytes bytes =
      (MAGIC_BYTE :: putLength bytes.length) ++ bytes.flatMap escapeByte := rfl
  rw [hrecord, ← length_recordHeader bytes.length, List.take_length_add_append]

/-- Less than a header. -/
theorem added_short (rounds : Nat) (buf : Buffer) {stream : List UInt8}
    (h : stream.length < 5) (itemsRead : Nat) :
    (nextItem restores (rounds + 1) buf stream itemsRead).1.filterMap added = [] := by
  have hread : (readInto buf 0 5 stream).1 < 5 := by
    rw [readInto]
    dsimp only
    split
    · decide
    · rw [List.length_take]
      omega
  have hloop : nextItem restores (rounds + 1) buf stream itemsRead =
      ([.reread itemsRead], .returned) := by
    rw [nextItem]
    exact if_pos hread
  rw [hloop]
  rfl

/-- A cut between two bytes of the item. -/
theorem added_boundary (x : CachedItem) {m : Nat} (hm : m < x.bytes.length) (rounds : Nat)
    (buf : Buffer) {itemsRead : Nat} (hcount : itemsRead + 1 ≤ 2 * MAXLOGENTRIES) :
    (nextItem restores (rounds + 2) buf ((writeEscapedBytes x.bytes).take
        (5 + ((x.bytes.take m).flatMap escapeByte).length)) itemsRead).1.filterMap added =
      (added (.restoreLogItem (buf2 (LogItem.filled x.bytes (x.bytes.length - m)))
        x.bytes.length)).toList := by
  have htake : (x.bytes.flatMap escapeByte).take
      ((x.bytes.take m).flatMap escapeByte).length = (x.bytes.take m).flatMap escapeByte := by
    conv_lhs => rw [← List.take_append_drop m x.bytes, List.flatMap_append]
    rw [List.take_append_drop, List.take_left]
  have hpayload := readPayload_cut x.bytes 0 (Nat.le_of_lt hm)
    (by rw [Nat.zero_add]; exact x.fits)
  obtain ⟨buf', hheader⟩ := nextItem_header restores (rounds + 1) buf x.fits
    ((x.bytes.take m).flatMap escapeByte) itemsRead
  rw [take_record, htake, hheader,
    readRecord_complete restores (rounds + 1) buf' hpayload hcount]
  generalize buf2 (LogItem.filled x.bytes (x.bytes.length - m)) = bytes
  cases hthrows : restores bytes x.bytes.length with
  | some e =>
      rw [say]
      cases hadded : added (.restoreLogItem bytes x.bytes.length) with
      | none => rw [List.filterMap_cons_none hadded]; rfl
      | some li => rw [List.filterMap_cons_some hadded]; rfl
  | none =>
      rw [say]
      cases hadded : added (.restoreLogItem bytes x.bytes.length) with
      | none => rw [List.filterMap_cons_none hadded, added_end]; rfl
      | some li => rw [List.filterMap_cons_some hadded, added_end]; rfl

theorem added_misread {x : CachedItem} {j : Nat} (h : Misread x j) (rounds : Nat) (buf : Buffer)
    {itemsRead : Nat} (hcount : itemsRead + 1 ≤ 2 * MAXLOGENTRIES) :
    (nextItem restores (rounds + 2) buf ((writeEscapedBytes x.bytes).take j)
      itemsRead).1.filterMap added ≠ [] := by
  obtain ⟨hmessage, m, hm, rfl, hwithout⟩ := h
  obtain ⟨level, hlevel, hbytes, hcap⟩ := x.marschaled
  have hle : x.bytes.length - m ≤ x.bytes.length := Nat.sub_le _ _
  obtain ⟨as, hrun⟩ := (LogItem.run_filled (Nat.sub_pos_of_lt hm) (hbytes ▸ hle) hcap).1 hwithout
  rw [← hbytes] at hrun
  have hverify : ({ x.item.recorded with mArgs := as, mLevel := some level } : LogItem).verify := by
    rw [← hlevel]
    exact (LogItem.verify_recorded x.verified).mpr hmessage
  have hadded := (added_of_ok hrun).2
  rw [LogItem.length_filled hle, if_pos hverify] at hadded
  rw [added_boundary x hm rounds buf hcount, hadded]
  exact List.cons_ne_nil _ _

theorem added_not_misread {x : CachedItem} {j : Nat} (hj : j < (writeEscapedBytes x.bytes).length)
    (h : ¬ Misread x j) (rounds : Nat) (buf : Buffer) {itemsRead : Nat}
    (hcount : itemsRead + 1 ≤ 2 * MAXLOGENTRIES) :
    (nextItem restores (rounds + 2) buf ((writeEscapedBytes x.bytes).take j)
      itemsRead).1.filterMap added = [] := by
  by_cases hshort : j < 5
  · apply added_short
    exact Nat.lt_of_le_of_lt (List.length_take_le _ _) hshort
  obtain ⟨i, rfl⟩ := Nat.exists_eq_add_of_le (Nat.not_lt.mp hshort)
  have hi : i < (x.bytes.flatMap escapeByte).length := by
    have hrecord : (writeEscapedBytes x.bytes).length =
        5 + (x.bytes.flatMap escapeByte).length := by
      rw [← length_recordHeader x.bytes.length, ← List.length_append]
      rfl
    omega
  rcases take_escaped x.bytes hi with ⟨m, hm, rfl, -⟩ | ⟨m, hm, hescape⟩
  · obtain ⟨level, hlevel, hbytes, hcap⟩ := x.marschaled
    have hle : x.bytes.length - m ≤ x.bytes.length := Nat.sub_le _ _
    have hfilled := LogItem.run_filled (Nat.sub_pos_of_lt hm) (hbytes ▸ hle) hcap
    rw [← hbytes] at hfilled
    rw [added_boundary x hm rounds buf hcount]
    by_cases hwithout : x.item.ReadWithout (x.bytes.length - m)
    · obtain ⟨as, hrun⟩ := hfilled.1 hwithout
      have hverify :
          ¬ ({ x.item.recorded with mArgs := as, mLevel := some level } : LogItem).verify := by
        rw [← hlevel]
        intro hverify
        exact h ⟨(LogItem.verify_recorded x.verified).mp hverify, m, hm, rfl, hwithout⟩
      have hadded := (added_of_ok hrun).2
      rw [LogItem.length_filled hle, if_neg hverify] at hadded
      rw [hadded]
      rfl
    · have hadded := added_of_fails (hfilled.2 hwithout)
      rw [LogItem.length_filled hle] at hadded
      rw [hadded]
      rfl
  · have hpayload := readPayload_escape x.bytes 0 hm (by rw [Nat.zero_add]; exact x.fits)
    obtain ⟨buf', hheader⟩ := nextItem_header restores (rounds + 1) buf x.fits
      ((x.bytes.take m).flatMap escapeByte ++ [MAGIC_BYTE + 1]) itemsRead
    rw [take_record, hescape, hheader, readRecord, Int.toNat_natCast, hpayload]
    rfl

/-! ### The whole file -/

theorem take_cacheFile (items : List CachedItem) (cut : Nat) :
    (cacheFile items).take cut =
      (complete items cut).flatMap (fun x => writeEscapedBytes x.bytes) ++
        match cutOff items cut with
        | none => []
        | some (x, j) => (writeEscapedBytes x.bytes).take j := by
  induction items generalizing cut with
  | nil => exact List.take_nil
  | cons x items ih =>
      rw [cacheFile, List.flatMap_cons, complete, cutOff]
      split
      · rename_i hle
        rw [List.take_append, List.take_of_length_le hle, List.flatMap_cons, List.append_assoc,
          ← ih, cacheFile]
      · rename_i hlt
        rw [List.take_append_of_le_length (Nat.le_of_not_le hlt)]
        rfl

theorem cutOff_lt {items : List CachedItem} {cut j : Nat} {x : CachedItem}
    (h : cutOff items cut = some (x, j)) : j < (writeEscapedBytes x.bytes).length := by
  induction items generalizing cut with
  | nil => cases h
  | cons y items ih =>
      rw [cutOff] at h
      split at h
      · exact ih h
      · rename_i hlt
        cases h
        exact Nat.not_le.mp hlt

theorem complete_sublist (items : List CachedItem) (cut : Nat) :
    (complete items cut).Sublist items := by
  induction items generalizing cut with
  | nil => exact List.Sublist.refl _
  | cons x items ih =>
      rw [complete]
      split
      · exact (ih _).cons_cons x
      · exact List.nil_sublist _

/-- What is restored comes from bytes. -/
theorem faithful_of_mem_restored {file : List UInt8} {li : LogItem} (h : li ∈ restoredItems file) :
    li.Faithful ∧ li.verify := by
  obtain ⟨event, -, hadded⟩ := List.mem_filterMap.mp h
  cases event with
  | logDebug msg => cases hadded
  | logError msg => cases hadded
  | reread n => cases hadded
  | restoreLogItem buf len =>
      rw [added, restoreLogItem] at hadded
      cases hbytes : LogItem.ofBytes buf len with
      | error e =>
          rw [hbytes] at hadded
          cases hadded
      | ok li' =>
          rw [hbytes] at hadded
          cases hverify : li'.verify with
          | false => simp [bind, Except.bind, pure, Except.pure, hverify] at hadded
          | true =>
              obtain rfl : li' = li := by
                simpa [bind, Except.bind, pure, Except.pure, hverify] using hadded
              exact ⟨LogItem.faithful_of_ofBytes hbytes, hverify⟩

/-- Only readable items have the record of a restored one. -/
theorem readable_of_sameRecord {x : CachedItem} {li : LogItem} (hfaithful : li.Faithful)
    (hverify : li.verify) (h : li.SameRecord x.item) : x.item.Readable := by
  obtain ⟨level, hlevel, hbytes, hcap⟩ := x.marschaled
  rw [LogItem.SameRecord, x.encodes] at h
  obtain ⟨level', hlevel', hbytes', hcap'⟩ := LogItem.getMarschaledBytes_eq_ok.mp h
  have hrun := LogItem.unmarschal_marschaled hlevel' hfaithful hcap'
  rw [← hbytes', hbytes] at hrun
  have hcount : (x.item.mArgs.getD []).length ≤ 30 := by
    by_contra hmany
    exact (LogItem.fails_many (Nat.not_le.mp hmany) hcap).ne_ok _ hrun
  refine ⟨hcount, (LogItem.verify_recorded x.verified).mp ?_⟩
  have hsame := (LogItem.unmarschal_recorded hlevel hcount hcap).symm.trans hrun
  obtain rfl : x.item.recorded = li := congrArg Prod.fst (Except.ok.inj hsame)
  exact hverify

theorem restoreLogItem_readable {x : CachedItem} (h : x.item.Readable) :
    restoreLogItem (buf2 x.bytes) x.bytes.length = .ok (.newLogItem x.item.recorded) := by
  obtain ⟨level, hlevel, hbytes, hcap⟩ := x.marschaled
  have hrun := LogItem.unmarschal_recorded hlevel h.count hcap
  have hverify := (LogItem.verify_recorded x.verified).mpr h.message
  rw [← hbytes] at hrun
  rw [restoreLogItem, ofBytes_buf2, hrun]
  exact if_pos hverify

theorem added_readable {x : CachedItem} (h : x.item.Readable) :
    restores (buf2 x.bytes) x.bytes.length = none ∧
      added (.restoreLogItem (buf2 x.bytes) x.bytes.length) = some x.item.recorded := by
  rw [restores, added, restoreLogItem_readable h]
  exact ⟨rfl, rfl⟩

theorem flatMap_bytes (items : List CachedItem) :
    (items.map (·.bytes)).flatMap writeEscapedBytes = cacheFile items := by
  rw [List.flatMap_map]
  rfl

theorem filterMap_added (items : List CachedItem) (h : ∀ x ∈ items, x.item.Readable) :
    ((items.map (·.bytes)).map fun bytes =>
      CacheEvent.restoreLogItem (buf2 bytes) bytes.length).filterMap added =
        items.map (·.item.recorded) := by
  induction items with
  | nil => rfl
  | cons x items ih =>
      have hx := (added_readable (h x List.mem_cons_self)).2
      rw [List.map_cons, List.map_cons, List.filterMap_cons_some hx,
        ih fun y hy => h y (List.mem_cons_of_mem x hy), List.map_cons]

/-- Readable items in front of the cut are restored, and what the cut record adds is
    behind them. -/
theorem restored_cacheFile (items : List CachedItem) (cut : Nat) (hcount : items.length ≤ 1000)
    (hreadable : ∀ x ∈ complete items cut, x.item.Readable) :
    ∃ tail, restoredItems ((cacheFile items).take cut) =
        (complete items cut).map (·.item.recorded) ++ tail ∧
      (tail = [] ↔ ∀ x j, cutOff items cut = some (x, j) → ¬ Misread x j) := by
  have hle : (complete items cut).length ≤ 1000 :=
    Nat.le_trans (complete_sublist items cut).length_le hcount
  have hroom : 0 + ((complete items cut).map (·.bytes)).length + 1 ≤ 2 * MAXLOGENTRIES := by
    rw [List.length_map, Nat.zero_add]
    exact Nat.le_trans (Nat.succ_le_succ hle) (by decide)
  have htake := take_cacheFile items cut
  rw [← cacheFile, ← flatMap_bytes (complete items cut)] at htake
  have hrounds : ((complete items cut).map (·.bytes)).length ≤
      ((cacheFile items).take cut).length := by
    rw [htake, List.length_append]
    exact Nat.le_add_right_of_le (length_le_flatMap_writeEscapedBytes _)
  obtain ⟨rounds, hrounds⟩ := Nat.exists_eq_add_of_le' hrounds
  obtain ⟨buf, hrecords⟩ := nextItem_records restores ((complete items cut).map (·.bytes))
    (rounds + 2) (fun _ => 0)
    (match cutOff items cut with
      | none => []
      | some (x, j) => (writeEscapedBytes x.bytes).take j) 0
    (fun bytes hbytes => by
      obtain ⟨x, -, rfl⟩ := List.mem_map.mp hbytes
      exact x.fits)
    (Nat.le_of_succ_le hroom)
    (fun bytes hbytes => by
      obtain ⟨x, hx, rfl⟩ := List.mem_map.mp hbytes
      exact (added_readable (hreadable x hx)).1)
  rw [← htake] at hrecords
  rw [restoredItems, readCacheContents, hrounds, Nat.add_right_comm, hrecords,
    List.filterMap_append, filterMap_added _ hreadable]
  refine ⟨_, rfl, ?_⟩
  cases hcut : cutOff items cut with
  | none =>
      refine iff_of_true (added_end _ _ _) fun x j h => ?_
      cases h
  | some r =>
      obtain ⟨x, j⟩ := r
      constructor
      · intro htail y i hy hmisread
        cases hy
        exact added_misread hmisread rounds buf hroom htail
      · intro hnone
        exact added_not_misread (cutOff_lt hcut) (hnone x j rfl) rounds buf hroom

theorem exists_left_of_forall₂ {α β : Type*} {R : α → β → Prop} {as : List α} {bs : List β}
    (h : List.Forall₂ R as bs) {b : β} (hb : b ∈ bs) : ∃ a ∈ as, R a b := by
  induction h with
  | nil => cases hb
  | cons hab _ ih =>
      rcases List.mem_cons.mp hb with rfl | hb
      · exact ⟨_, List.mem_cons_self, hab⟩
      · obtain ⟨a, ha, hR⟩ := ih hb
        exact ⟨a, List.mem_cons_of_mem _ ha, hR⟩

/-- The items in front of the cut and no others are restored if each of them is read
    back as an item and the cut record is not. -/
theorem restores_complete_iff (items : List CachedItem) (cut : Nat)
    (hcount : items.length ≤ 1000) :
    List.Forall₂ LogItem.SameRecord (restoredItems ((cacheFile items).take cut))
        ((complete items cut).map (·.item)) ↔
      (∀ x ∈ complete items cut, x.item.Readable) ∧
        ∀ x j, cutOff items cut = some (x, j) → ¬ Misread x j := by
  constructor
  · intro hsame
    have hreadable : ∀ x ∈ complete items cut, x.item.Readable := by
      intro x hx
      obtain ⟨li, hli, hrecord⟩ := exists_left_of_forall₂ hsame (List.mem_map_of_mem hx)
      obtain ⟨hfaithful, hverify⟩ := faithful_of_mem_restored hli
      exact readable_of_sameRecord hfaithful hverify hrecord
    obtain ⟨tail, hrestored, htail⟩ := restored_cacheFile items cut hcount hreadable
    have hlength := hsame.length_eq
    rw [hrestored, List.length_append, List.length_map, List.length_map] at hlength
    exact ⟨hreadable, htail.mp (List.length_eq_zero_iff.mp (Nat.add_eq_left.mp hlength))⟩
  · rintro ⟨hreadable, hcut⟩
    obtain ⟨tail, hrestored, htail⟩ := restored_cacheFile items cut hcount hreadable
    rw [hrestored, htail.mpr hcut, List.append_nil, List.forall₂_map_left_iff,
      List.forall₂_map_right_iff, List.forall₂_same]
    exact fun x _ => LogItem.getMarschaledBytes_recorded x.item

/-- A line with a number as its last argument. -/
def numberItem : CachedItem where
  item := ⟨some [.integer 5], none, 1, some .INFO, 0, -1⟩
  bytes := LogItem.marschaled ⟨some [.integer 5], none, 1, some .INFO, 0, -1⟩ .INFO
  encodes := rfl
  verified := rfl

theorem restores_complete_iff_numberItem :
    List.Forall₂ LogItem.SameRecord (restoredItems ((cacheFile [numberItem]).take 39))
        ((complete [numberItem] 39).map (·.item)) ↔
      (∀ x ∈ complete [numberItem] 39, x.item.Readable) ∧
        ∀ x j, cutOff [numberItem] 39 = some (x, j) → ¬ Misread x j :=
  restores_complete_iff [numberItem] 39 (by decide)

/-- Without its last byte the line is restored with another number. -/
theorem not_restores_complete :
    ¬ List.Forall₂ LogItem.SameRecord (restoredItems ((cacheFile [numberItem]).take 39))
      ((complete [numberItem] 39).map (·.item)) := by
  have hcomplete : complete [numberItem] 39 = [] := rfl
  have hmisread : Misread numberItem 39 :=
    ⟨fun h => (nomatch h.1), 34, by decide, rfl, by decide, .integer 5, rfl, by decide⟩
  obtain ⟨tail, hrestored, htail⟩ := restored_cacheFile [numberItem] 39 (by decide) (by
    rw [hcomplete]
    exact fun x hx => nomatch hx)
  rw [hrestored, hcomplete, List.map_nil, List.map_nil, List.nil_append, List.forall₂_nil_right_iff]
  intro hnil
  exact htail.mp hnil numberItem 39 rfl hmisread

end LogFileHandler

end OpenVpnAndroid
