import QNEthernet.Drivers.Cyw43ScanBounds

/-! How the elements of a network are classified. The last place in an RSN element is not looked at, and
nothing stands in the `switch` for a network with the elements of WPA and of WPA3. -/

namespace QNEthernet.Drivers.Cyw43.Scan

open Lwip Elements

def SuiteAt (e : Element) (i : Nat) : Prop := (e.data.drop i).take 4 = saeSuite

instance (e : Element) (i : Nat) : Decidable (SuiteAt e i) := inferInstanceAs (Decidable (_ = _))

def IsRsn (e : Element) : Prop := e.id = dot11IeIdRsn

instance (e : Element) : Decidable (IsRsn e) := inferInstanceAs (Decidable (_ = _))

def LongRsn (e : Element) : Prop := IsRsn e ∧ 18 ≤ e.data.length

instance (e : Element) : Decidable (LongRsn e) := inferInstanceAs (Decidable (_ ∧ _))

/-- An RSN element with the suite, at any place where there is room for it. -/
def HasSuite (e : Element) : Prop := LongRsn e ∧ ∃ i, i + 4 ≤ e.data.length ∧ SuiteAt e i

/-- An RSN element with the suite at a place that is not the last one. -/
def SuiteFound (e : Element) : Prop := LongRsn e ∧ ∃ i, i < e.data.length - 4 ∧ SuiteAt e i

instance (e : Element) : Decidable (SuiteFound e) := inferInstanceAs (Decidable (_ ∧ ∃ i, i < _ ∧ _))

def IsWpa (e : Element) : Prop :=
  e.id = dot11IeIdVendorSpecific ∧ 4 ≤ e.data.length ∧ e.data.take 4 = wpaOuiType1

instance (e : Element) : Decidable (IsWpa e) := inferInstanceAs (Decidable (_ ∧ _ ∧ _))

theorem SuiteFound.hasSuite {e : Element} (found : SuiteFound e) : HasSuite e := by
  obtain ⟨long, i, before, suite⟩ := found
  exact ⟨long, i, by omega, suite⟩

/-- What a turn makes of an element. -/
def absorb (s : Parse) (e : Element) : Parse where
  parsed := s.parsed + e.size
  hasRsn := s.hasRsn || decide (IsRsn e)
  hasWpa := s.hasWpa || decide (IsWpa e)
  securityMask := if SuiteFound e then s.securityMask ||| secWpa3 else s.securityMask

theorem foldl_mask (P : Nat → Prop) [DecidablePred P] (bit mask : BitVec 32) (is : List Nat) :
    is.foldl (fun mask i => if P i then mask ||| bit else mask) mask = if ∃ i ∈ is, P i then mask ||| bit else mask := by
  induction is generalizing mask with
  | nil => simp only [List.foldl_nil, List.not_mem_nil, false_and, exists_false, if_false]
  | cons i is ih =>
      simp only [List.foldl_cons, ih, List.mem_cons, exists_eq_or_imp]
      by_cases here : P i
      · simp only [here, if_true, true_or, BitVec.or_assoc, BitVec.or_self, ite_self]
      · simp only [here, if_false, false_or]

variable {ie : Nat → Byte} {ieLen : Nat} {s : Parse}

theorem window_data {p i : Nat} (inside : i + 4 ≤ (first ie p).data.length) :
    Memory.window ie (p + 2 + i) 4 = ((first ie p).data.drop i).take 4 := by
  have len : (first ie p).data.length = (ie (p + 1)).toNat := Memory.length_window _ _ _
  have split : (first ie p).data = Memory.window ie (p + 2) i ++
      (Memory.window ie (p + 2 + i) 4 ++ Memory.window ie (p + 2 + i + 4) ((ie (p + 1)).toNat - (i + 4))) := by
    rw [← Memory.window_add, ← Memory.window_add]
    show Memory.window ie (p + 2) (ie (p + 1)).toNat = _
    congr 1
    omega
  rw [split, List.drop_left' (Memory.length_window _ _ _), List.take_left' (Memory.length_window _ _ _)]

theorem lookAt_first (header : s.parsed + 2 < 2 ^ 32) :
    { (lookAt ie s).2 with parsed := s.parsed + (first ie s.parsed).size } = absorb s (first ie s.parsed) := by
  have next : (s.parsed + 1) % 2 ^ 32 = s.parsed + 1 := Nat.mod_eq_of_lt (by omega)
  have data : (s.parsed + 2) % 2 ^ 32 = s.parsed + 2 := Nat.mod_eq_of_lt (by omega)
  have len : (first ie s.parsed).data.length = (ie (s.parsed + 1)).toNat := Memory.length_window _ _ _
  have id : (first ie s.parsed).id = ie s.parsed := rfl
  simp only [lookAt, absorb, next, data, IsRsn, IsWpa, SuiteFound, LongRsn, id, len]
  by_cases rsn : ie s.parsed = dot11IeIdRsn
  · have other : ¬ dot11IeIdRsn = dot11IeIdVendorSpecific := by decide
    by_cases long : 18 ≤ (ie (s.parsed + 1)).toNat
    · simp only [rsn, long, other, if_true, foldl_mask, List.mem_range, true_and, false_and, decide_true, decide_false,
        Bool.or_true, Bool.or_false, Parse.mk.injEq]
      congr 1
      refine propext (exists_congr fun i => and_congr_right fun before => ?_)
      rw [SuiteAt, ← window_data (by omega)]
    · simp only [rsn, long, other, if_true, if_false, false_and, and_false, decide_true, decide_false, Bool.or_true,
        Bool.or_false]
  · have other : ¬ dot11IeIdVendorSpecific = dot11IeIdRsn := by decide
    by_cases vendor : ie s.parsed = dot11IeIdVendorSpecific
    · by_cases long : 4 ≤ (ie (s.parsed + 1)).toNat
      · have place : Memory.window ie (s.parsed + 2) 4 = (first ie s.parsed).data.take 4 :=
          window_data (i := 0) (by omega)
        by_cases wpa : (first ie s.parsed).data.take 4 = wpaOuiType1
        · simp [other, vendor, long, place, wpa]
        · simp [other, vendor, long, place, wpa]
      · simp [other, vendor, long]
    · simp [rsn, vendor]

/-- The loop goes through the elements that are left, up to one that it takes to be cut. -/
theorem parseLoop_elements (small : ieLen < 2 ^ 32) (es : List Element) (rest : List Byte) {len fuel : Nat}
    (stand : Memory.window ie s.parsed len = es.flatMap Element.encode ++ rest) (whole : s.parsed + len = ieLen)
    (stop : rest = [] ∨ ieLen < elementEnd ie (ieLen - rest.length)) (enough : len < fuel) :
    ∃ reads, parseLoop ie ieLen fuel s = some (es.foldl absorb s, reads) := by
  induction es generalizing s len fuel with
  | nil =>
      have left : len = rest.length := by
        have lengths := congrArg List.length stand
        rwa [Memory.length_window] at lengths
      cases fuel with
      | zero => omega
      | succ fuel =>
          rcases stop with none | past
          · subst none
            exact ⟨[], if_neg (by rw [← whole, left]; exact Nat.lt_irrefl _)⟩
          · rw [show ieLen - rest.length = s.parsed by omega] at past
            rw [parseLoop, turn_cut past]
            split
            · exact ⟨_, rfl⟩
            · exact ⟨[], rfl⟩
  | cons e es ih =>
      rw [List.flatMap_cons, List.append_assoc] at stand
      obtain ⟨same, behind⟩ := first_eq stand
      have fits : e.size ≤ len := by
        have lengths := congrArg List.length stand
        rw [Memory.length_window, List.length_append, e.length_encode] at lengths
        omega
      have size : e.size = (ie (s.parsed + 1)).toNat + 2 := by rw [← same, size_first]
      have after : elementEnd ie s.parsed = s.parsed + e.size := by
        rw [elementEnd, Nat.mod_eq_of_lt (a := s.parsed + 1) (by omega), Nat.mod_eq_of_lt (by omega)]
        omega
      have next : turned ie s = absorb s e := by
        rw [turned, after, ← same]
        exact lookAt_first (by omega)
      cases fuel with
      | zero => omega
      | succ fuel =>
          have step : (absorb s e).parsed = s.parsed + e.size := rfl
          have behind' : Memory.window ie (absorb s e).parsed (len - e.size) = es.flatMap Element.encode ++ rest := behind
          obtain ⟨reads, ran⟩ := ih behind' (by omega) (show len - e.size < fuel by omega)
          rw [parseLoop, if_pos (by omega), turn_next (by omega), next]
          exact ⟨_, Option.map_eq_some_iff.mpr ⟨_, ran, rfl⟩⟩

theorem foldl_hasRsn (es : List Element) :
    (es.foldl absorb s).hasRsn = (s.hasRsn || decide (∃ e ∈ es, IsRsn e)) := by
  induction es generalizing s with
  | nil => simp
  | cons e es ih => simp only [List.foldl_cons, ih, absorb, List.exists_mem_cons_iff, Bool.decide_or, Bool.or_assoc]

theorem foldl_hasWpa (es : List Element) :
    (es.foldl absorb s).hasWpa = (s.hasWpa || decide (∃ e ∈ es, IsWpa e)) := by
  induction es generalizing s with
  | nil => simp
  | cons e es ih => simp only [List.foldl_cons, ih, absorb, List.exists_mem_cons_iff, Bool.decide_or, Bool.or_assoc]

theorem foldl_securityMask (es : List Element) :
    (es.foldl absorb s).securityMask = if ∃ e ∈ es, SuiteFound e then s.securityMask ||| secWpa3 else s.securityMask := by
  induction es generalizing s with
  | nil => simp
  | cons e es ih =>
      simp only [List.foldl_cons, ih, absorb, List.exists_mem_cons_iff]
      by_cases here : SuiteFound e
      · simp only [here, if_true, true_or, BitVec.or_assoc, BitVec.or_self, ite_self]
      · simp only [here, if_false, false_or]

def Private (capability : BitVec 16) : Prop := capability &&& dot11CapPrivacy ≠ 0

instance (capability : BitVec 16) : Decidable (Private capability) := inferInstanceAs (Decidable (_ ≠ _))

def Has (mask bit : BitVec 32) : Prop := mask &&& bit ≠ 0

instance (mask bit : BitVec 32) : Decidable (Has mask bit) := inferInstanceAs (Decidable (_ ≠ _))

/-- The mask says how a network with these elements is secured, and there is a name for it. -/
structure Classified (es : List Element) (capability : BitVec 16) (mask : BitVec 32) : Prop where
  wpa3 : Has mask secWpa3 ↔ ∃ e ∈ es, HasSuite e
  wep : Private capability → (Has mask secWep ↔ ¬ (∃ e ∈ es, IsRsn e) ∧ ¬ ∃ e ∈ es, IsWpa e)
  wpa : Private capability → (Has mask secWpa ↔ ∃ e ∈ es, IsWpa e)
  wpa2 : Private capability → (Has mask secWpa2 ↔ (∃ e ∈ es, IsRsn e) ∧ ¬ ∃ e ∈ es, HasSuite e)
  open_ : ¬ Private capability → ¬ Has mask secWep ∧ ¬ Has mask secWpa ∧ ¬ Has mask secWpa2
  assigned : securityTypeString mask ≠ none

def maskOf (isPrivate rsn wpa found : Bool) : BitVec 32 :=
  Parse.evaluate { hasRsn := rsn, hasWpa := wpa, securityMask := if found then secWpa3 else secOpen }
    (if isPrivate then dot11CapPrivacy else 0)

theorem evaluate_eq (s : Parse) (capability : BitVec 16) (rsn wpa found : Bool) (hasRsn : s.hasRsn = rsn)
    (hasWpa : s.hasWpa = wpa) (mask : s.securityMask = if found then secWpa3 else secOpen) :
    s.evaluate capability = maskOf (decide (Private capability)) rsn wpa found := by
  have flag : ((if decide (Private capability) then dot11CapPrivacy else 0) &&& dot11CapPrivacy ≠ 0) ↔
      Private capability := by
    by_cases isPrivate : Private capability
    · simp only [isPrivate, decide_true, if_true, iff_true]
      decide
    · simp only [isPrivate, decide_false, Bool.false_eq_true, if_false, iff_false]
      decide
  rw [maskOf, Parse.evaluate, Parse.evaluate, hasRsn, hasWpa, mask]
  simp only [flag]
  rfl

theorem maskOf_bits (isPrivate rsn wpa found : Bool) (isRsn : found = true → rsn = true) :
    (Has (maskOf isPrivate rsn wpa found) secWpa3 ↔ found = true) ∧
      (Has (maskOf isPrivate rsn wpa found) secWep ↔ isPrivate = true ∧ rsn = false ∧ wpa = false) ∧
      (Has (maskOf isPrivate rsn wpa found) secWpa ↔ isPrivate = true ∧ wpa = true) ∧
      (Has (maskOf isPrivate rsn wpa found) secWpa2 ↔ isPrivate = true ∧ rsn = true ∧ found = false) ∧
      (securityTypeString (maskOf isPrivate rsn wpa found) = none ↔
        isPrivate = true ∧ wpa = true ∧ found = true) := by
  revert isPrivate rsn wpa found
  decide

/-- A network with the elements of WPA and of WPA3. -/
example : maskOf true true true true = secWpa ||| secWpa3 := by decide

theorem Info.capability_hide (info : Info) : info.hide.capability = info.capability := by
  rw [capability, capability, field, field, window_hide info (by decide)]

variable {info : Info} {es : List Element}

theorem securityMask_elements (rest : List Byte)
    (stand : Memory.window info.hide.ieStart 0 info.ieLength = es.flatMap Element.encode ++ rest)
    (stop : rest = [] ∨ info.ieLength < elementEnd info.hide.ieStart (info.ieLength - rest.length))
    {fuel : Nat} (enough : info.ieLength < fuel) :
    securityMask fuel info = some (maskOf (decide (Private info.capability)) (decide (∃ e ∈ es, IsRsn e))
      (decide (∃ e ∈ es, IsWpa e)) (decide (∃ e ∈ es, SuiteFound e))) := by
  obtain ⟨reads, ran⟩ := parseLoop_elements (s := {}) info.ieLength_lt es rest stand (Nat.zero_add _) stop enough
  rw [securityMask, info.ieLength_hide, ran, Option.map_some, info.capability_hide]
  congr 1
  apply evaluate_eq
  · rw [foldl_hasRsn, Bool.false_or]
  · rw [foldl_hasWpa, Bool.false_or]
  · rw [foldl_securityMask]
    simp only [decide_eq_true_eq]
    rfl

theorem isRsn_of_suiteFound (found : ∃ e ∈ es, SuiteFound e) : ∃ e ∈ es, IsRsn e := by
  obtain ⟨e, member, suite⟩ := found
  exact ⟨e, member, suite.1.1⟩

namespace Info

def elements (info : Info) : List Element := complete info.hide.ieStart info.ieLength 0 info.ieLength

def elementsEnd (info : Info) : Nat := (info.elements.flatMap Element.encode).length

/-- Nothing stands behind them, or an element whose end, in 32 bits, lies past the last byte. -/
def Stops (info : Info) : Prop :=
  info.elementsEnd = info.ieLength ∨ info.ieLength < elementEnd info.hide.ieStart info.elementsEnd

instance (info : Info) : Decidable info.Stops := inferInstanceAs (Decidable (_ ∨ _))

/-- The network has the privacy bit and the elements of WPA and of WPA3. -/
def Unnamed (info : Info) : Prop :=
  Private info.capability ∧ (∃ e ∈ info.elements, IsWpa e) ∧ ∃ e ∈ info.elements, SuiteFound e

instance (info : Info) : Decidable info.Unnamed := inferInstanceAs (Decidable (_ ∧ _ ∧ _))

end Info

/-- A network is given a security string if the loop stops and there is a name for it. -/
theorem securityMask_named (stops : info.Stops) (named : ¬ info.Unnamed) {fuel : Nat} (enough : info.ieLength < fuel) :
    ∃ mask securityType, securityMask fuel info = some mask ∧ securityTypeString mask = some securityType := by
  obtain ⟨rest, stand⟩ := complete_stands (m := info.hide.ieStart) info.ieLength 0 info.ieLength
  have total : info.ieLength = info.elementsEnd + rest.length := by
    have lengths := congrArg List.length stand
    rwa [Memory.length_window, List.length_append] at lengths
  have stop : rest = [] ∨ info.ieLength < elementEnd info.hide.ieStart (info.ieLength - rest.length) := by
    rcases stops with whole | past
    · exact .inl (List.length_eq_zero_iff.mp (by omega))
    · right
      rwa [total, Nat.add_sub_cancel, ← total]
  obtain ⟨-, -, -, -, none⟩ := maskOf_bits (decide (Private info.capability)) (decide (∃ e ∈ info.elements, IsRsn e))
    (decide (∃ e ∈ info.elements, IsWpa e)) (decide (∃ e ∈ info.elements, SuiteFound e))
    (by simpa only [decide_eq_true_eq] using isRsn_of_suiteFound)
  simp only [decide_eq_true_eq] at none
  obtain ⟨securityType, assigned⟩ := Option.ne_none_iff_exists'.mp (mt none.mp named)
  exact ⟨_, securityType, securityMask_elements rest stand stop enough, assigned⟩

/-- A network whose elements fill the place for them is classified if the suite, where there is one, stands
before the last place of some RSN element, and if that does not go with the element of WPA and the privacy bit. -/
theorem scan_classified_iff (info : Info) (es : List Element)
    (stand : Memory.window info.hide.ieStart 0 info.ieLength = es.flatMap Element.encode) :
    ∃ mask, (∀ fuel, info.ieLength < fuel → securityMask fuel info = some mask) ∧
      (Classified es info.capability mask ↔
        ((∃ e ∈ es, HasSuite e) → ∃ e ∈ es, SuiteFound e) ∧
          ¬ (Private info.capability ∧ (∃ e ∈ es, IsWpa e) ∧ ∃ e ∈ es, SuiteFound e)) := by
  refine ⟨_, fun fuel enough => securityMask_elements [] (by rw [List.append_nil, stand]) (.inl rfl) enough, ?_⟩
  have hasSuite : (∃ e ∈ es, SuiteFound e) → ∃ e ∈ es, HasSuite e := fun ⟨e, member, found⟩ => ⟨e, member, found.hasSuite⟩
  obtain ⟨wpa3, wep, wpa, wpa2, none⟩ := maskOf_bits (decide (Private info.capability)) (decide (∃ e ∈ es, IsRsn e))
    (decide (∃ e ∈ es, IsWpa e)) (decide (∃ e ∈ es, SuiteFound e)) (by simpa only [decide_eq_true_eq] using isRsn_of_suiteFound)
  simp only [decide_eq_true_eq, decide_eq_false_iff_not] at wpa3 wep wpa wpa2 none
  generalize maskOf _ _ _ _ = mask at wpa3 wep wpa wpa2 none ⊢
  constructor
  · intro classified
    exact ⟨fun suite => wpa3.mp (classified.wpa3.mpr suite), fun unnamed => classified.assigned (none.mpr unnamed)⟩
  · intro ⟨seen, named⟩
    have same : (∃ e ∈ es, SuiteFound e) ↔ ∃ e ∈ es, HasSuite e := ⟨hasSuite, seen⟩
    rw [same] at wpa3 wpa2 none named
    exact {
      wpa3 := wpa3
      wep := fun isPrivate => wep.trans (and_iff_right isPrivate)
      wpa := fun isPrivate => wpa.trans (and_iff_right isPrivate)
      wpa2 := fun isPrivate => wpa2.trans (and_iff_right isPrivate)
      open_ := fun isOpen => ⟨fun bit => isOpen (wep.mp bit).1, fun bit => isOpen (wpa.mp bit).1,
        fun bit => isOpen (wpa2.mp bit).1⟩
      assigned := fun unnamed => named (none.mp unnamed) }

/-- An RSN element with CCMP and the suite of SAE, and what follows that. -/
def rsnSae (rest : List Byte) (short : rest.length < 100) : Element where
  id := 48
  data := [1, 0, 0x00, 0x0F, 0xAC, 0x04, 1, 0, 0x00, 0x0F, 0xAC, 0x04, 1, 0, 0x00, 0x0F, 0xAC, 0x08] ++ rest
  fits := by
    rw [List.length_append]
    exact Nat.lt_trans (Nat.add_lt_add_left short _) (by decide)

/-- The structure of a network with the privacy bit and one element. -/
def oneElement (e : Element) : Info :=
  Memory.write (fun _ => 0) 0 (fixedPart (.ofNat (128 + e.size)) 0x10 (.ofNat e.size) ++ e.encode)

/-- With the capabilities behind it, the suite is found. -/
theorem scan_classified_capabilities : ∃ mask,
    (∀ fuel, 22 < fuel → securityMask fuel (oneElement (rsnSae [0xC0, 0x00] (by decide))) = some mask) ∧
      Classified [rsnSae [0xC0, 0x00] (by decide)] 0x10 mask := by
  obtain ⟨mask, returned, classified⟩ := scan_classified_iff (oneElement (rsnSae [0xC0, 0x00] (by decide)))
    [rsnSae [0xC0, 0x00] (by decide)] (by decide)
  exact ⟨mask, returned, classified.mpr ⟨fun _ => by decide, by decide⟩⟩

/-- At the end of the element it is not: the network passes for WPA2. -/
theorem scan_lastSuite_missed :
    Memory.window (oneElement (rsnSae [] (by decide))).hide.ieStart 0 (oneElement (rsnSae [] (by decide))).ieLength =
        [rsnSae [] (by decide)].flatMap Element.encode ∧
      (∀ fuel, 20 < fuel → securityMask fuel (oneElement (rsnSae [] (by decide))) = some secWpa2) ∧
        ¬ Classified [rsnSae [] (by decide)] 0x10 secWpa2 := by
  refine ⟨by decide, ?_, ?_⟩
  · intro fuel enough
    have stand : Memory.window (oneElement (rsnSae [] (by decide))).hide.ieStart 0
        (oneElement (rsnSae [] (by decide))).ieLength = [rsnSae [] (by decide)].flatMap Element.encode ++ [] := by decide
    exact (securityMask_elements [] stand (.inl rfl) enough).trans (by decide)
  · intro classified
    have suite : HasSuite (rsnSae [] (by decide)) := ⟨by decide, 14, by decide, by decide⟩
    exact absurd (classified.wpa3.mpr ⟨_, List.mem_singleton_self _, suite⟩) (by decide)

end QNEthernet.Drivers.Cyw43.Scan
