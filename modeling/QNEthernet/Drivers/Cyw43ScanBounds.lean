import QNEthernet.Drivers.Cyw43Scan
import QNEthernet.Lib.Elements

/-! Where the loop past the elements of a network reads. A length that is the last byte of its element is
read before it is known to be there, and neither the sum of the check nor the cursor stays below `2 ^ 32`. -/

namespace QNEthernet.Drivers.Cyw43.Scan

open Lwip

theorem four_below (start bound : Nat) : (∀ i ∈ four start, i < bound) ↔ start + 4 ≤ bound := by
  constructor
  · intro below
    exact below (start + 3) (by simp [four])
  · intro room i member
    simp only [four, List.mem_cons, List.not_mem_nil, or_false] at member
    omega

theorem fours_below {count start bound : Nat} (some : 0 < count) :
    (∀ i ∈ (List.range count).flatMap fun i => four (start + i), i < bound) ↔ start + count + 3 ≤ bound := by
  constructor
  · intro below
    have last : ∀ i ∈ four (start + (count - 1)), i < bound := by
      intro i member
      exact below i (List.mem_flatMap.mpr ⟨count - 1, List.mem_range.mpr (by omega), member⟩)
    have room := (four_below _ _).mp last
    omega
  · intro room i member
    obtain ⟨k, inside, here⟩ := List.mem_flatMap.mp member
    have within := List.mem_range.mp inside
    exact (four_below (start + k) bound).mpr (by omega) i here

variable {ie : Nat → Byte} {ieLen : Nat}

/-- Behind the last byte of an element that is looked at: the four bytes of a suite may stand anywhere but at
the end of an RSN element, and those of the vendor at the start. -/
def lookedAt (ie : Nat → Byte) (p : Nat) : Nat :=
  let len := (ie (p + 1)).toNat
  if ie p = dot11IeIdRsn ∧ 18 ≤ len then p + 1 + len
  else if ie p = dot11IeIdVendorSpecific ∧ 4 ≤ len then p + 6
  else p + 2

theorem lookAt_below {s : Parse} (small : ieLen < 2 ^ 32) (header : s.parsed + 2 ≤ ieLen) :
    (∀ i ∈ (lookAt ie s).1, i < ieLen) ↔ lookedAt ie s.parsed ≤ ieLen := by
  have next : (s.parsed + 1) % 2 ^ 32 = s.parsed + 1 := Nat.mod_eq_of_lt (by omega)
  have data : (s.parsed + 2) % 2 ^ 32 = s.parsed + 2 := Nat.mod_eq_of_lt (by omega)
  have none : (∀ i ∈ ([] : List Nat), i < ieLen) ↔ s.parsed + 2 ≤ ieLen :=
    ⟨fun _ => header, fun _ i member => absurd member List.not_mem_nil⟩
  simp only [lookAt, lookedAt, next, data]
  by_cases rsn : ie s.parsed = dot11IeIdRsn
  · by_cases long : 18 ≤ (ie (s.parsed + 1)).toNat
    · have some : 0 < (ie (s.parsed + 1)).toNat - 4 := by omega
      simp only [rsn, long, if_true, and_self]
      rw [fours_below some]
      omega
    · simp only [rsn, long, if_true, if_false, and_false]
      exact none
  · by_cases vendor : ie s.parsed = dot11IeIdVendorSpecific
    · by_cases long : 4 ≤ (ie (s.parsed + 1)).toNat
      · simp only [vendor, long, if_true, and_self]
        exact four_below _ _
      · simp only [vendor, long, if_true, if_false, and_false]
        exact none
    · simp only [rsn, vendor, if_false, false_and]
      exact none

/-- Going through the elements from an offset on, nothing is looked at that lies past the end: they end, or
the data of one has no room, or it is looked at and they go on behind it. -/
inductive Contained (ie : Nat → Byte) (ieLen : Nat) : Nat → Prop
  | ended {p : Nat} (end_ : ieLen ≤ p) : Contained ie ieLen p
  | cut {p : Nat} (header : p + 2 ≤ ieLen) (past : ieLen < elementEnd ie p) : Contained ie ieLen p
  | next {p : Nat} (header : p + 2 ≤ ieLen) (room : elementEnd ie p ≤ ieLen) (data : lookedAt ie p ≤ ieLen)
      (rest : Contained ie ieLen (elementEnd ie p)) : Contained ie ieLen p

def Ends (ie : Nat → Byte) (ieLen : Nat) (s : Parse) : Prop :=
  ∃ fuel r, parseLoop ie ieLen fuel s = some r ∧ ∀ i ∈ r.2, i < ieLen

variable {s : Parse}

theorem ends_done (done : ieLen ≤ s.parsed) : Ends ie ieLen s :=
  ⟨1, (s, []), if_neg (Nat.not_lt.mpr done), fun _ member => absurd member List.not_mem_nil⟩

theorem ends_turn (more : s.parsed < ieLen) :
    Ends ie ieLen s ↔ (∀ i ∈ (turn ie ieLen s).1, i < ieLen) ∧
      ∀ s', (turn ie ieLen s).2 = some s' → Ends ie ieLen s' := by
  rcases turned : turn ie ieLen s with ⟨reads, _ | s'⟩
  · constructor
    · intro ⟨fuel, r, ran, inside⟩
      cases fuel with
      | zero => cases ran
      | succ fuel =>
          rw [parseLoop, if_pos more, turned, Option.some.injEq] at ran
          rw [← ran] at inside
          exact ⟨inside, fun _ none => nomatch none⟩
    · intro ⟨inside, _⟩
      refine ⟨1, (s, reads), ?_, inside⟩
      rw [parseLoop, if_pos more, turned]
  · constructor
    · intro ⟨fuel, r, ran, inside⟩
      cases fuel with
      | zero => cases ran
      | succ fuel =>
          rw [parseLoop, if_pos more, turned] at ran
          obtain ⟨r', ran', rfl⟩ := Option.map_eq_some_iff.mp ran
          constructor
          · intro i member
            exact inside i (List.mem_append_left _ member)
          · intro _ same
            cases same
            exact ⟨fuel, r', ran', fun i member => inside i (List.mem_append_right _ member)⟩
    · intro ⟨inside, rest⟩
      obtain ⟨fuel, r, ran, inside'⟩ := rest s' rfl
      refine ⟨fuel + 1, (r.1, reads ++ r.2), ?_, ?_⟩
      · rw [parseLoop, if_pos more, turned]
        exact Option.map_eq_some_iff.mpr ⟨r, ran, rfl⟩
      · intro i member
        rcases List.mem_append.mp member with here | there
        · exact inside i here
        · exact inside' i there

def turned (ie : Nat → Byte) (s : Parse) : Parse := { (lookAt ie s).2 with parsed := elementEnd ie s.parsed }

theorem turn_cut (past : ieLen < elementEnd ie s.parsed) :
    turn ie ieLen s = ([s.parsed, (s.parsed + 1) % 2 ^ 32], none) := if_pos past

theorem turn_next (room : elementEnd ie s.parsed ≤ ieLen) :
    turn ie ieLen s = ([s.parsed, (s.parsed + 1) % 2 ^ 32] ++ (lookAt ie s).1, some (turned ie s)) :=
  if_neg (Nat.not_lt.mpr room)

theorem header_below (small : ieLen < 2 ^ 32) (more : s.parsed < ieLen) :
    (∀ i ∈ [s.parsed, (s.parsed + 1) % 2 ^ 32], i < ieLen) ↔ s.parsed + 2 ≤ ieLen := by
  rw [List.forall_mem_cons, List.forall_mem_singleton, Nat.mod_eq_of_lt (by omega)]
  omega

theorem Contained.ends (small : ieLen < 2 ^ 32) {p : Nat} (contained : Contained ie ieLen p)
    (here : s.parsed = p) : Ends ie ieLen s := by
  induction contained generalizing s with
  | ended end_ => exact ends_done (here ▸ end_)
  | cut header past =>
      subst here
      have more : s.parsed < ieLen := by omega
      rw [ends_turn more, turn_cut past]
      exact ⟨(header_below small more).mpr header, fun _ none => nomatch none⟩
  | next header room data rest ih =>
      subst here
      have more : s.parsed < ieLen := by omega
      rw [ends_turn more, turn_next room]
      constructor
      · intro i member
        rcases List.mem_append.mp member with first | second
        · exact (header_below small more).mpr header i first
        · exact (lookAt_below small header).mpr data i second
      · intro s' same
        cases same
        exact ih rfl

theorem contained_of_ends (small : ieLen < 2 ^ 32) (fuel : Nat) {r : Parse × List Nat}
    (ran : parseLoop ie ieLen fuel s = some r) (inside : ∀ i ∈ r.2, i < ieLen) : Contained ie ieLen s.parsed := by
  induction fuel generalizing s r with
  | zero => cases ran
  | succ fuel ih =>
      by_cases more : s.parsed < ieLen
      · rw [parseLoop, if_pos more] at ran
        by_cases past : ieLen < elementEnd ie s.parsed
        · rw [turn_cut past] at ran
          cases ran
          exact .cut ((header_below small more).mp inside) past
        · have room : elementEnd ie s.parsed ≤ ieLen := Nat.not_lt.mp past
          rw [turn_next room] at ran
          obtain ⟨r', ran', rfl⟩ := Option.map_eq_some_iff.mp ran
          have first : ∀ i ∈ [s.parsed, (s.parsed + 1) % 2 ^ 32], i < ieLen := by
            intro i member
            exact inside i (List.mem_append_left _ (List.mem_append_left _ member))
          have header := (header_below small more).mp first
          refine .next header room ((lookAt_below small header).mp ?_) (ih ran' ?_)
          · intro i member
            exact inside i (List.mem_append_left _ (List.mem_append_right _ member))
          · intro i member
            exact inside i (List.mem_append_right _ member)
      · exact .ended (Nat.not_lt.mp more)

theorem ends_iff (small : ieLen < 2 ^ 32) : Ends ie ieLen s ↔ Contained ie ieLen s.parsed := by
  constructor
  · intro ⟨fuel, r, ran, inside⟩
    exact contained_of_ends small fuel ran inside
  · intro contained
    exact contained.ends small rfl

theorem elementEnd_eq {p : Nat} (room : ieLen + 257 ≤ 2 ^ 32) (more : p < ieLen) :
    elementEnd ie p = p + (Elements.first ie p).size := by
  have len := (ie (p + 1)).toNat_lt
  rw [elementEnd, Nat.mod_eq_of_lt (a := p + 1) (by omega), Nat.mod_eq_of_lt (by omega), Elements.size_first]
  omega

theorem lookedAt_le (p : Nat) : lookedAt ie p ≤ p + (Elements.first ie p).size := by
  rw [Elements.size_first, lookedAt]
  split
  · omega
  · split <;> omega

theorem contained_iff (room : ieLen + 257 ≤ 2 ^ 32) {p : Nat} (inside : p ≤ ieLen) :
    Contained ie ieLen p ↔ ¬ Elements.Stray ie p (ieLen - p) := by
  induction left : ieLen - p using Nat.strong_induction_on generalizing p with
  | _ len ih =>
      rcases Nat.lt_or_ge len 2 with short | header
      · by_cases done : len = 0
        · rw [done]
          exact ⟨fun _ => Elements.not_stray_zero, fun _ => .ended (by omega)⟩
        · -- The length byte of the last element is missing.
          have one : len = 1 := by omega
          rw [one]
          constructor
          · intro contained
            cases contained <;> omega
          · intro noStray
            exact absurd Elements.stray_one noStray
      · have behind : elementEnd ie p = p + (Elements.first ie p).size := elementEnd_eq room (by omega)
        by_cases cut : len < (Elements.first ie p).size
        · exact ⟨fun _ => Elements.not_stray_cut header cut, fun _ => .cut (by omega) (by omega)⟩
        · have size := Elements.size_first (m := ie) p
          have within : elementEnd ie p ≤ ieLen := by omega
          have shorter := ih (len - (Elements.first ie p).size) (by omega) within (by omega)
          rw [Elements.stray_next (Nat.not_lt.mp cut), ← behind, ← shorter]
          constructor
          · intro contained
            cases contained with
            | ended end_ => omega
            | cut _ past => omega
            | next _ _ _ rest => exact rest
          · intro rest
            exact .next (by omega) within (Nat.le_trans (lookedAt_le p) (by omega)) rest

namespace Info

variable (info : Info)

theorem ieLength_hide : info.hide.ieLength = info.ieLength := by
  rw [ieLength, ieLength, field, field, window_hide info (by decide)]

theorem field_lt (offset bytes : Nat) : info.field offset bytes < 256 ^ bytes := by
  have below := Nat.ofDigits_lt_base_pow_length (b := 256) (by decide)
    (l := (Memory.window info offset bytes).map UInt8.toNat) (by
      intro d member
      obtain ⟨b, -, rfl⟩ := List.mem_map.mp member
      exact b.toNat_lt)
  rwa [List.length_map, Memory.length_window] at below

theorem ieLength_lt : info.ieLength < 2 ^ 32 := field_lt info 120 4

theorem length_lt : info.length < 2 ^ 32 := field_lt info 4 4

end Info

/-- The elements lie within the structure, and the loop over them ends and reads nothing else. -/
structure Safe (info : Info) : Prop where
  region : info.ieOffset + info.ieLength ≤ info.length
  ends : Ends info.hide.ieStart info.hide.ieLength {}

/-- What passes the check is handled safely if the sum of the check is not cut and the elements are contained.
Unless they come within 256 bytes of `2 ^ 32`, that is, unless they are complete but for a single last byte. -/
theorem scan_safe_iff (info : Info) (checked : info.fits = true) :
    (Safe info ↔ info.ieOffset + info.ieLength < 2 ^ 32 ∧ Contained info.hide.ieStart info.ieLength 0) ∧
      (info.ieLength + 257 ≤ 2 ^ 32 →
        (Contained info.hide.ieStart info.ieLength 0 ↔ ¬ Elements.Stray info.hide.ieStart 0 info.ieLength)) := by
  have small := info.ieLength_lt
  have length := info.length_lt
  have sum : (info.ieOffset + info.ieLength) % 2 ^ 32 ≤ info.length := by
    simpa only [Info.fits, gt_iff_lt, Bool.not_eq_true', decide_eq_false_iff_not, not_lt] using checked
  have ends : Ends info.hide.ieStart info.hide.ieLength {} ↔ Contained info.hide.ieStart info.ieLength 0 := by
    rw [info.ieLength_hide]
    exact ends_iff small
  refine ⟨⟨?_, ?_⟩, fun room => contained_iff room (Nat.zero_le _)⟩
  · intro safe
    exact ⟨Nat.lt_of_le_of_lt safe.region length, ends.mp safe.ends⟩
  · intro ⟨whole, contained⟩
    rw [Nat.mod_eq_of_lt whole] at sum
    exact ⟨sum, ends.mpr contained⟩

/-- The fixed part of a structure of so many bytes: the capabilities, a name, and elements behind it. -/
def fixedPart (length capability ieLength : Byte) : List Byte :=
  [0, 0, 0, 0, length, 0, 0, 0] ++ List.replicate 8 0 ++ [capability, 0, 1, 0x41] ++ List.replicate 96 0 ++
    [128, 0, 0, 0, ieLength, 0, 0, 0, 0, 0, 0, 0]

/-- 135 bytes, with the elements that tell the rates and the channel. -/
def twoElements : Info := Memory.write (fun _ => 0) 0 (fixedPart 135 0 7 ++ [1, 2, 0x82, 0x84, 3, 1, 6])

theorem scan_safe_twoElements : twoElements.fits = true ∧ Safe twoElements :=
  ⟨by decide, (scan_safe_iff twoElements (by decide)).1.mpr ⟨by decide,
    .next (by decide) (by decide) (by decide) (.next (by decide) (by decide) (by decide) (.ended (by decide)))⟩⟩

/-- 129 bytes, the last of which begins an element. -/
def oneByte : Info := Memory.write (fun _ => 0) 0 (fixedPart 129 0 1 ++ [48])

theorem scan_oneByte_unsafe : oneByte.fits = true ∧ ¬ Safe oneByte := by
  refine ⟨by decide, fun safe => ?_⟩
  have ends := safe.ends
  rw [oneByte.ieLength_hide, show oneByte.ieLength = 1 by decide] at ends
  have contained := (ends_iff (by decide)).mp ends
  exact (contained_iff (by decide) (by decide)).mp contained Elements.stray_one

end QNEthernet.Drivers.Cyw43.Scan
