import QNEthernet.Drivers.Cyw43ScanSecurity
import QNEthernet.Lib.LastOfEach

/-! The table of results over a scan: what each event stores, and what `getScanCount` makes of it. -/

namespace QNEthernet.Drivers.Cyw43.Scan

open Lwip LastOfEach

theorem memcmp_antisymm {a b : List Byte} (same : a.length = b.length) (below : memcmp a b ≤ 0)
    (above : memcmp b a ≤ 0) : a = b := by
  induction a generalizing b with
  | nil => exact (List.length_eq_zero_iff.mp same.symm).symm
  | cons x a ih =>
      cases b with
      | nil => cases same
      | cons y b =>
          by_cases equal : x = y
          · subst equal
            rw [memcmp, if_pos rfl] at below above
            rw [ih (Nat.succ.inj same) below above]
          · rw [memcmp, if_neg equal] at below
            rw [memcmp, if_neg (Ne.symm equal)] at above
            exact absurd (UInt8.toNat_inj.mp (by omega)) equal

theorem memcmp_self (a : List Byte) : memcmp a a = 0 := by
  induction a with
  | nil => rfl
  | cons x a ih => rw [memcmp, if_pos rfl, ih]

theorem length_bssidOf {entry : List Byte} (width : entry.length = sizeofResult) : (bssidOf entry).length = maclen := by
  rw [bssidOf, List.length_take, List.length_drop, width]
  rfl

/-- What an entry says of a network. -/
structure Result where
  bssid : List Byte
  ssid : List Byte
  signalStrength : List Byte
  security : List Byte
  channel : Byte
  securityMask : Byte
  deriving DecidableEq

def Result.ofEntry (entry : List Byte) : Result where
  bssid := bssidOf entry
  ssid := (entry.take 32).takeWhile (· ≠ 0)
  signalStrength := (entry.drop 38).take 2
  security := ((entry.drop 40).take 15).takeWhile (· ≠ 0)
  channel := entry.getD 55 0
  securityMask := entry.getD 56 0

/-- What a frame says of a network, once its security is known. -/
def Info.result (info : Info) (mask : BitVec 32) (securityType : List Byte) : Result where
  bssid := info.bssid
  ssid := (Memory.window info.hide ssid 32).takeWhile (· ≠ 0)
  signalStrength := info.rssi
  security := securityType
  channel := .ofBitVec ((info.chanspec &&& 0xff).setWidth 8)
  securityMask := .ofBitVec (mask.setWidth 8)

section Entry

variable {m : Nat → Byte} {start len : Nat} {s : List Byte}

theorem takeWhile_window (stands : Memory.window m start (s.length + 1) = s ++ [0]) (noNul : 0 ∉ s)
    (inside : s.length < len) : (Memory.window m start len).takeWhile (· ≠ 0) = s := by
  have parts : Memory.window m start len = s ++ 0 :: Memory.window m (start + (s.length + 1)) (len - (s.length + 1)) := by
    rw [List.append_cons, ← stands, ← Memory.window_add, Nat.add_sub_cancel' inside]
  have all : ∀ b ∈ s, decide (b ≠ 0) = true := by
    intro b member
    exact decide_eq_true (fun zero => noNul (zero ▸ member))
  rw [parts, List.takeWhile_append_of_pos all, List.takeWhile_cons_of_neg (by decide), List.append_nil]

theorem cString_eq {fuel i : Nat} (nul : m (start + i) = 0) (enough : i < fuel) :
    ∃ s : List Byte, cString m fuel start = some s ∧ s.length ≤ i ∧ 0 ∉ s ∧
      Memory.window m start (s.length + 1) = s ++ [0] := by
  induction fuel generalizing start i with
  | zero => omega
  | succ fuel ih =>
      by_cases done : m start = 0
      · refine ⟨[], if_pos done, Nat.zero_le _, List.not_mem_nil, ?_⟩
        rw [← done]
        rfl
      · cases i with
        | zero => exact absurd nul done
        | succ i =>
            have nul' : m (start + 1 + i) = 0 := by rwa [Nat.add_assoc, Nat.add_comm 1 i]
            obtain ⟨s, found, short, noNul, stands⟩ := ih nul' (by omega)
            refine ⟨m start :: s, ?_, Nat.succ_le_succ short, ?_, ?_⟩
            · rw [cString, if_neg done, found, Option.map_some]
            · rw [List.mem_cons, not_or]
              exact ⟨Ne.symm done, noNul⟩
            · rw [List.length_cons, Nat.add_comm _ 1, Memory.window_add, stands]
              rfl

end Entry

section Store

variable {results : Nat → Byte} {entry : Nat} {info : Info} {ssid securityType : List Byte} {mask : BitVec 32}

theorem storeEntry_before {a : Nat} (before : a < sizeofResult * entry) :
    storeEntry results entry info ssid securityType mask a = results a := by
  simp only [storeEntry]
  rw [Memory.write_before _ (by omega), Memory.write_before _ (by omega), Memory.write_before _ (by omega),
    Memory.write_before _ (by omega), Memory.write_before _ (by omega), Memory.write_before _ (by omega)]

theorem row_storeEntry {i : Nat} (before : i < entry) :
    Rows.row (storeEntry results entry info ssid securityType mask) sizeofResult i = Rows.row results sizeofResult i := by
  apply Rows.row_congr
  intro a here
  apply storeEntry_before
  rw [Nat.mul_comm]
  exact (Nat.div_lt_iff_lt_mul (by decide)).mp (by omega)

theorem ofEntry_storeEntry (short : ssid.length < 32) (noNul : 0 ∉ ssid) (short' : securityType.length < 15)
    (noNul' : 0 ∉ securityType) :
    Result.ofEntry (Rows.row (storeEntry results entry info ssid securityType mask) sizeofResult entry) =
      { bssid := info.bssid, ssid := ssid, signalStrength := info.rssi, security := securityType,
        channel := .ofBitVec ((info.chanspec &&& 0xff).setWidth 8), securityMask := .ofBitVec (mask.setWidth 8) } := by
  have bssidLen : info.bssid.length = 6 := Memory.length_window _ _ _
  have rssiLen : info.rssi.length = 2 := Memory.length_window _ _ _
  have ssidLen : (ssid ++ [0]).length = ssid.length + 1 := List.length_append
  have securityLen : (securityType ++ [0]).length = securityType.length + 1 := List.length_append
  have bssid : Memory.window (storeEntry results entry info ssid securityType mask) (sizeofResult * entry + 32) 6 =
      info.bssid := by
    simp only [storeEntry]
    rw [Memory.window_write_before _ (by omega), Memory.window_write_before _ (by omega),
      Memory.window_write_before _ (by omega), Memory.window_write_before _ (by omega),
      Memory.window_write_behind _ (by omega), ← bssidLen, Memory.window_write]
  have name : Memory.window (storeEntry results entry info ssid securityType mask) (sizeofResult * entry)
      (ssid.length + 1) = ssid ++ [0] := by
    simp only [storeEntry]
    rw [Memory.window_write_before _ (by omega), Memory.window_write_before _ (by omega),
      Memory.window_write_before _ (by omega), Memory.window_write_before _ (by omega), ← ssidLen, Memory.window_write]
  have rssi : Memory.window (storeEntry results entry info ssid securityType mask) (sizeofResult * entry + 38) 2 =
      info.rssi := by
    simp only [storeEntry]
    rw [Memory.window_write_before _ (by omega), Memory.window_write_before _ (by omega),
      Memory.window_write_before _ (by omega), ← rssiLen, Memory.window_write]
  have security : Memory.window (storeEntry results entry info ssid securityType mask) (sizeofResult * entry + 40)
      (securityType.length + 1) = securityType ++ [0] := by
    simp only [storeEntry]
    rw [Memory.window_write_before _ (by omega), Memory.window_write_before _ (by omega), ← securityLen,
      Memory.window_write]
  have channel : storeEntry results entry info ssid securityType mask (sizeofResult * entry + 55) =
      .ofBitVec ((info.chanspec &&& 0xff).setWidth 8) := by
    simp only [storeEntry]
    rw [Memory.write_before _ (by omega), Memory.write_singleton]
  have last : storeEntry results entry info ssid securityType mask (sizeofResult * entry + 56) =
      .ofBitVec (mask.setWidth 8) := Memory.write_singleton _ _ _
  rw [Result.ofEntry, bssidOf, Rows.row]
  simp only [Memory.drop_window, Memory.take_window, Result.mk.injEq]
  refine ⟨bssid, takeWhile_window name noNul short, rssi, takeWhile_window security noNul' short', ?_, ?_⟩
  · rw [Memory.getD_window _ (by decide), channel]
  · rw [Memory.getD_window _ (by decide), last]

end Store

/-- The loop of `removeDuplicates` keeps the last entry of each BSSID. It uses the entries up to the one behind the
last, and of the other table as many as it keeps. -/
theorem removeLoop_eq (results : Nat → Byte) (turns i index : Nat) (filtered : Nat → Byte) (small : index + turns < 256)
    {kept : List (List Byte)}
    (lasts_ : lasts bssidOf (Rows.row results sizeofResult (i + turns)) (Rows.rows results sizeofResult i turns) = kept) :
    ∃ used usedFiltered,
      removeLoop results turns i index filtered =
        (index + kept.length, Rows.put filtered sizeofResult index kept, used, usedFiltered) ∧
      (∀ k ∈ used, k ≤ i + turns) ∧ ∀ k ∈ usedFiltered, k < index + turns := by
  induction turns generalizing i index filtered kept with
  | zero =>
      subst lasts_
      refine ⟨[], [], ?_, by simp, by simp⟩
      have nothing : Rows.put filtered sizeofResult index [] = filtered := by
        funext a
        rw [Rows.put, if_neg (by simp only [List.length_nil]; omega)]
      rw [removeLoop, Rows.rows, List.range_zero, List.map_nil, lasts, nothing]
      rfl
  | succ turns ih =>
      have next : (Rows.rows results sizeofResult (i + 1) turns).headD (Rows.row results sizeofResult (i + (turns + 1))) =
          Rows.row results sizeofResult (i + 1) := by
        cases turns with
        | zero => rfl
        | succ turns =>
            rw [Rows.rows_cons]
            rfl
      have behind : i + 1 + turns = i + (turns + 1) := by omega
      rw [Rows.rows_cons, lasts, next] at lasts_
      rw [← behind] at lasts_ ⊢
      have both : ∀ {used : List Nat}, (∀ k ∈ used, k ≤ i + 1 + turns) → ∀ k ∈ i :: (i + 1) :: used, k ≤ i + 1 + turns := by
        intro used bound
        rw [List.forall_mem_cons, List.forall_mem_cons]
        exact ⟨by omega, by omega, bound⟩
      by_cases same : bssidOf (Rows.row results sizeofResult i) = bssidOf (Rows.row results sizeofResult (i + 1))
      · rw [if_pos same] at lasts_
        obtain ⟨used, usedFiltered, ran, bound, bound'⟩ := ih (i + 1) index filtered (by omega) lasts_
        refine ⟨i :: (i + 1) :: used, usedFiltered, ?_, both bound, ?_⟩
        · rw [removeLoop, if_pos same, ran]
        · intro k member
          exact Nat.lt_of_lt_of_le (bound' k member) (by omega)
      · rw [if_neg same] at lasts_
        obtain ⟨used, usedFiltered, ran, bound, bound'⟩ :=
          ih (i + 1) (index + 1) (Rows.put filtered sizeofResult index [Rows.row results sizeofResult i]) (by omega) rfl
        refine ⟨i :: (i + 1) :: used, index :: usedFiltered, ?_, both bound, ?_⟩
        · simp only [removeLoop, if_neg same, Nat.mod_eq_of_lt (show index + 1 < 2 ^ 8 by omega), ran]
          rw [Rows.put_cons, ← lasts_, List.length_cons, Nat.add_assoc, Nat.add_comm 1]
        · rw [List.forall_mem_cons]
          refine ⟨by omega, fun k member => Nat.lt_of_lt_of_le (bound' k member) (by omega)⟩

inductive Event where
  | scanStart
  | frame (eip : EventInfo) (frame : Frame)
  | getScanCount

def step (q : Qsort) (fuel : Nat) (s : Station) : Event → Option (Used × Station)
  | .scanStart => some (⟨0, [], []⟩, Scan.scanStart s)
  | .frame eip frame => scanEventHandler fuel s eip frame
  | .getScanCount => some (Scan.getScanCount q s)

def IsResult (eip : EventInfo) (frame : Frame) : Prop :=
  (eip.chan = sdpcmChanEvt ∧ eip.eventType = wlcEEscanResult) ∧ frame.status ≠ 0 ∧ frame.info.ssidLen ≠ 0 ∧
    frame.info.fits = true

instance (eip : EventInfo) (frame : Frame) : Decidable (IsResult eip frame) :=
  inferInstanceAs (Decidable ((_ ∧ _) ∧ _ ≠ _ ∧ _ ≠ _ ∧ _ = _))

/-- What the results since the last `scan_start` say. -/
def heard (fuel : Nat) (seen : List Result) : Event → List Result
  | .scanStart => []
  | .frame eip frame =>
      if IsResult eip frame then
        seen ++ ((securityMask fuel frame.info).bind fun mask =>
          (securityTypeString mask).map (frame.info.result mask)).toList
      else seen
  | .getScanCount => seen

/-- The results fit into the table and leave its last entry, which the loop compares with, alone; their names
end within their fields; the parser stops and has a string for them. They are not counted when there is one, nor
when the entry behind them, which an earlier scan has left, has the largest BSSID. -/
def Ok (s : Station) : Event → Prop
  | .scanStart => True
  | .frame eip frame =>
      IsResult eip frame → s.scanCount + 1 < maxScanEntries ∧ (∃ i < 32, frame.info (Info.ssid + i) = 0) ∧
        frame.info.Stops ∧ ¬ frame.info.Unnamed
  | .getScanCount =>
      s.scanCount ≠ 1 ∧ s.scanCount + 1 < maxScanEntries ∧
        ∀ a ∈ Rows.rows s.results sizeofResult 1 s.scanCount,
          (∀ b ∈ Rows.rows s.results sizeofResult 1 s.scanCount, compareBSSID b a ≤ 0) →
            bssidOf a ≠ bssidOf (Rows.row s.results sizeofResult (s.scanCount + 1))

instance (s : Station) : (e : Event) → Decidable (Ok s e)
  | .scanStart => .isTrue trivial
  | .frame eip frame => inferInstanceAs (Decidable (IsResult eip frame → _ ∧ (∃ i, i < 32 ∧ _) ∧ _ ∧ ¬ _))
  | .getScanCount => inferInstanceAs (Decidable (_ ≠ _ ∧ _ < _ ∧ ∀ a ∈ _, (∀ b ∈ _, _) → _ ≠ _))

def entries (filtered : Nat → Byte) (count : Int) : List Result :=
  (Rows.rows filtered sizeofResult 0 count.toNat).map Result.ofEntry

/-- The count is that of the BSSIDs, and so many entries have each of them once, with one of its results. -/
structure Counted (seen : List Result) (count : Int) (filtered : Nat → Byte) : Prop where
  exact : count = (seen.map Result.bssid).dedup.length
  once : ((entries filtered count).map Result.bssid).Nodup
  each : ∀ r ∈ seen, r.bssid ∈ (entries filtered count).map Result.bssid
  results : ∀ r ∈ entries filtered count, r ∈ seen

/-- The entries from the first on are those of the results. -/
structure Holds (seen : List Result) (s : Station) : Prop where
  scanCount : s.scanCount = seen.length
  atMost : seen.length < maxScanEntries
  results : ((Rows.rows s.results sizeofResult 1 seen.length).map Result.ofEntry).Perm seen

/-- What is shown of a step: it uses the entries that there are, and `getScanCount` counts. -/
structure Shown (seen : List Result) (e : Event) (r : Used × Station) : Prop where
  results : ∀ i ∈ r.1.results, i < maxScanEntries
  filtered : ∀ i ∈ r.1.filtered, i < maxScanEntries
  counted : e = .getScanCount → Counted seen r.1.ret r.2.filtered

variable {q : Qsort} {fuel : Nat} {seen : List Result} {s : Station}

theorem scanStart_holds (s : Station) : Holds [] (scanStart s) where
  scanCount := rfl
  atMost := by decide
  results := .nil

theorem securityTypeString_short {mask : BitVec 32} {securityType : List Byte}
    (assigned : securityTypeString mask = some securityType) : securityType.length < 15 ∧ 0 ∉ securityType := by
  simp only [securityTypeString] at assigned
  split_ifs at assigned <;> cases assigned <;> decide

theorem handler_other {eip : EventInfo} {frame : Frame} (none : ¬ IsResult eip frame) :
    ∃ ret, scanEventHandler fuel s eip frame = some (⟨ret, [], []⟩, s) := by
  rw [scanEventHandler]
  split
  · next event =>
      split
      · exact ⟨_, rfl⟩
      · next running =>
          split
          · exact ⟨_, rfl⟩
          · next named =>
              split
              · next fits => exact absurd ⟨event, running, named, fits⟩ none
              · exact ⟨_, rfl⟩
  · exact ⟨_, rfl⟩

theorem handler_result {eip : EventInfo} {frame : Frame} (result : IsResult eip frame) {results : Nat → Byte}
    (parsed : parseScanResult fuel s.results ((s.scanCount + 1) % 2 ^ 8) frame.info = some results) :
    scanEventHandler fuel s eip frame = some (⟨1, [(s.scanCount + 1) % 2 ^ 8], []⟩,
      { s with scanCount := (s.scanCount + 1) % 2 ^ 8, results := results }) := by
  obtain ⟨event, running, named, fits⟩ := result
  rw [scanEventHandler, if_pos event, if_neg running, if_neg named, if_pos fits]
  exact Option.map_eq_some_iff.mpr ⟨results, parsed, rfl⟩

theorem result_hide (info : Info) : info.hide.bssid = info.bssid ∧ info.hide.rssi = info.rssi ∧
    info.hide.chanspec = info.chanspec := by
  refine ⟨Info.window_hide info (by decide), Info.window_hide info (by decide), ?_⟩
  rw [Info.chanspec, Info.field, Info.window_hide info (by decide)]
  rfl

theorem parseScanResult_eq (results : Nat → Byte) (entry : Nat) {info : Info} {mask : BitVec 32}
    {securityType : List Byte} (parsed : securityMask fuel info = some mask)
    (assigned : securityTypeString mask = some securityType) (enough : 32 ≤ fuel)
    (ends : ∃ i < 32, info (Info.ssid + i) = 0) :
    ∃ results', parseScanResult fuel results entry info = some results' ∧
      (∀ i < entry, Rows.row results' sizeofResult i = Rows.row results sizeofResult i) ∧
      Result.ofEntry (Rows.row results' sizeofResult entry) = info.result mask securityType := by
  have nul : ∃ i < 32, info.hide (Info.ssid + i) = 0 := by
    rw [Info.hide]
    split
    · exact ⟨8, by decide, rfl⟩
    · exact ends
  obtain ⟨i, inside, zero⟩ := nul
  obtain ⟨name, found, short, noNul, stands⟩ := cString_eq zero (Nat.lt_of_lt_of_le inside enough)
  obtain ⟨short', noNul'⟩ := securityTypeString_short assigned
  obtain ⟨bssid, rssi, chanspec⟩ := result_hide info
  refine ⟨storeEntry results entry info.hide name securityType mask, ?_, fun i before => row_storeEntry before, ?_⟩
  · rw [parseScanResult, parsed, Option.bind_some, assigned, Option.bind_some, found, Option.map_some]
  · rw [ofEntry_storeEntry (by omega) noNul short' noNul', Info.result, bssid, rssi, chanspec,
      takeWhile_window stands noNul (by omega)]

theorem Holds.frame (holds : Holds seen s) (enough : 2 ^ 32 ≤ fuel) (eip : EventInfo) (frame : Frame)
    (ok : Ok s (.frame eip frame)) :
    ∃ r, step q fuel s (.frame eip frame) = some r ∧ Holds (heard fuel seen (.frame eip frame)) r.2 ∧
      Shown seen (.frame eip frame) r := by
  by_cases result : IsResult eip frame
  · obtain ⟨room, ends, stops, named⟩ := ok result
    obtain ⟨mask, securityType, parsed, assigned⟩ :=
      securityMask_named stops named (frame.info.ieLength_lt.trans_le enough)
    have count := holds.scanCount
    have small : (s.scanCount + 1) % 2 ^ 8 = seen.length + 1 := by
      rw [← count]
      exact Nat.mod_eq_of_lt (Nat.lt_trans room (by decide))
    rw [count] at room
    obtain ⟨results', stored, before, entry⟩ := parseScanResult_eq s.results (seen.length + 1) parsed assigned
      (Nat.le_trans (by decide) enough) ends
    have more : heard fuel seen (.frame eip frame) = seen ++ [frame.info.result mask securityType] := by
      rw [heard, if_pos result, parsed, Option.bind_some, assigned]
      rfl
    have same : Rows.rows results' sizeofResult 1 seen.length = Rows.rows s.results sizeofResult 1 seen.length := by
      apply List.map_congr_left
      intro i member
      have inside := List.mem_range.mp member
      exact before (1 + i) (by omega)
    refine ⟨_, handler_result result (by rw [small]; exact stored), ?_, ?_⟩
    · rw [more, small]
      exact {
        scanCount := by rw [List.length_append, List.length_singleton]
        atMost := by rwa [List.length_append, List.length_singleton]
        results := by
          rw [List.length_append, List.length_singleton, Rows.rows_succ, same, List.map_append, List.map_singleton,
            Nat.add_comm 1, entry]
          exact holds.results.append (.refl _) }
    · refine ⟨?_, fun i member => absurd member List.not_mem_nil, fun other => nomatch other⟩
      rw [small, List.forall_mem_singleton]
      exact room
  · obtain ⟨ret, same⟩ : ∃ ret, scanEventHandler fuel s eip frame = some (⟨ret, [], []⟩, s) := handler_other result
    refine ⟨_, same, ?_, ?_⟩
    · rw [heard, if_neg result]
      exact holds
    · exact ⟨fun i member => absurd member List.not_mem_nil, fun i member => absurd member List.not_mem_nil,
        fun other => nomatch other⟩

theorem Qsort.ordered (q : Qsort) {entries : List (List Byte)} (widths : ∀ e ∈ entries, e.length = sizeofResult) :
    Ordered bssidOf (fun a b => compareBSSID a b ≤ 0) (q.sort entries) where
  sorted := q.sorted entries widths
  squeeze := by
    intro a first b second below c third above same
    have width : ∀ e ∈ q.sort entries, (bssidOf e).length = maclen :=
      fun e member => length_bssidOf (widths e ((q.perm entries).mem_iff.mp member))
    rw [compareBSSID] at below above
    rw [← same] at above
    exact memcmp_antisymm ((width a first).trans (width b second).symm) below above

theorem last_largest {l : List (List Byte)} (sorted : l.Pairwise fun a b => compareBSSID a b ≤ 0) {a : List Byte}
    (last : l.getLast? = some a) : a ∈ l ∧ ∀ b ∈ l, compareBSSID b a ≤ 0 := by
  obtain ⟨front, rfl⟩ := List.getLast?_eq_some_iff.mp last
  refine ⟨List.mem_append_right _ (List.mem_singleton_self a), fun b member => ?_⟩
  rcases List.mem_append.mp member with before | here
  · exact (List.pairwise_append.mp sorted).2.2 b before a (List.mem_singleton_self a)
  · rw [List.mem_singleton.mp here, compareBSSID, memcmp_self]

/-- What the kept entries of a sorted table say, once they are copied. -/
theorem counted_lasts {sorted : List (List Byte)} {behind : List Byte} {filtered : Nat → Byte}
    (ordered : Ordered bssidOf (fun a b => compareBSSID a b ≤ 0) sorted) (widths : ∀ e ∈ sorted, e.length = sizeofResult)
    (differs : ∀ a, sorted.getLast? = some a → bssidOf a ≠ bssidOf behind)
    (same : (sorted.map Result.ofEntry).Perm seen) :
    Counted seen (lasts bssidOf behind sorted).length
      (Rows.put filtered sizeofResult 0 (lasts bssidOf behind sorted)) := by
  have copied : entries (Rows.put filtered sizeofResult 0 (lasts bssidOf behind sorted))
      (lasts bssidOf behind sorted).length = (lasts bssidOf behind sorted).map Result.ofEntry := by
    rw [entries, Int.toNat_natCast, Rows.rows_put (fun e kept => widths e ((lasts_sublist sorted).mem kept))]
  have bssids : sorted.map bssidOf = (sorted.map Result.ofEntry).map Result.bssid := by
    rw [List.map_map]
    rfl
  have kept : ((lasts bssidOf behind sorted).map Result.ofEntry).map Result.bssid =
      (lasts bssidOf behind sorted).map bssidOf := by
    rw [List.map_map]
    rfl
  constructor
  · rw [ordered.length_lasts differs, bssids, (same.map Result.bssid).dedup.length_eq]
  · rw [copied, kept]
    exact ordered.nodup_lasts
  · intro r member
    obtain ⟨a, present, rfl⟩ := List.mem_map.mp (same.mem_iff.mpr member)
    rw [copied, kept]
    exact key_mem_lasts differs present
  · intro r member
    rw [copied] at member
    exact same.mem_iff.mp (((lasts_sublist sorted).map Result.ofEntry).mem member)

theorem Holds.getScanCount (holds : Holds seen s) (ok : Ok s .getScanCount) :
    Holds seen (Scan.getScanCount q s).2 ∧ Shown seen .getScanCount (Scan.getScanCount q s) := by
  obtain ⟨notOne, room, stale⟩ := ok
  have count := holds.scanCount
  rw [Scan.getScanCount, removeDuplicates]
  by_cases few : s.scanCount < 2
  · have none : seen = [] := List.length_eq_zero_iff.mp (by omega)
    subst none
    rw [if_pos few]
    exact ⟨holds, by simp, by simp, fun _ => ⟨rfl, List.nodup_nil, by simp, by simp [entries, Rows.rows]⟩⟩
  · rw [if_neg few, count]
    rw [count] at room stale
    have widths : ∀ e ∈ Rows.rows s.results sizeofResult 1 seen.length, e.length = sizeofResult :=
      fun e member => Rows.mem_rows_length member
    have perm := q.perm (Rows.rows s.results sizeofResult 1 seen.length)
    have ordered := q.ordered widths
    generalize q.sort (Rows.rows s.results sizeofResult 1 seen.length) = sorted at perm ordered ⊢
    have widths' : ∀ e ∈ sorted, e.length = sizeofResult := fun e member => widths e (perm.mem_iff.mp member)
    have length : sorted.length = seen.length := perm.length_eq.trans (Rows.length_rows _ _)
    have placed : Rows.rows (Rows.put s.results sizeofResult 1 sorted) sizeofResult 1 seen.length = sorted := by
      rw [← length]
      exact Rows.rows_put widths'
    have behind : Rows.row (Rows.put s.results sizeofResult 1 sorted) sizeofResult (1 + seen.length) =
        Rows.row s.results sizeofResult (seen.length + 1) := by
      rw [Rows.row_put_outside (.inr (by rw [length])), Nat.add_comm]
    have differs : ∀ a, sorted.getLast? = some a → bssidOf a ≠ bssidOf (Rows.row s.results sizeofResult (seen.length + 1)) := by
      intro a last
      obtain ⟨member, largest⟩ := last_largest ordered.sorted last
      exact stale a (perm.mem_iff.mp member) (fun b other => largest b (perm.mem_iff.mpr other))
    have same : (sorted.map Result.ofEntry).Perm seen := (perm.map _).trans holds.results
    have table : maxScanEntries < 256 := by decide
    have kept : lasts bssidOf (Rows.row (Rows.put s.results sizeofResult 1 sorted) sizeofResult (1 + seen.length))
        (Rows.rows (Rows.put s.results sizeofResult 1 sorted) sizeofResult 1 seen.length) =
          lasts bssidOf (Rows.row s.results sizeofResult (seen.length + 1)) sorted := by
      rw [placed, behind]
    obtain ⟨used, usedFiltered, ran, bound, bound'⟩ := removeLoop_eq (Rows.put s.results sizeofResult 1 sorted)
      seen.length 1 0 s.filtered (Nat.lt_trans (by omega) table) kept
    rw [Nat.zero_add] at ran bound'
    simp only [ran]
    have short : (lasts bssidOf (Rows.row s.results sizeofResult (seen.length + 1)) sorted).length ≤ seen.length := by
      rw [← length]
      exact (lasts_sublist sorted).length_le
    refine ⟨⟨rfl, holds.atMost, ?_⟩, ?_, ?_, fun _ => ?_⟩
    · rw [placed]
      exact same
    · intro i member
      rcases List.mem_append.mp member with sorting | comparing
      · obtain ⟨k, inside, rfl⟩ := List.mem_map.mp sorting
        have within := List.mem_range.mp inside
        omega
      · exact Nat.lt_of_le_of_lt (bound i comparing) (by omega)
    · intro i member
      exact Nat.lt_trans (bound' i member) holds.atMost
    · rw [Int.emod_eq_of_lt (by omega) (by omega)]
      exact counted_lasts ordered widths' differs same

theorem Holds.step (enough : 2 ^ 32 ≤ fuel) (holds : Holds seen s) (e : Event) (ok : Ok s e) :
    ∃ r, step q fuel s e = some r ∧ Holds (heard fuel seen e) r.2 ∧ Shown seen e r := by
  cases e with
  | scanStart => exact ⟨_, rfl, scanStart_holds s, by simp, by simp, fun other => nomatch other⟩
  | frame eip frame => exact holds.frame enough eip frame ok
  | getScanCount =>
      obtain ⟨kept, shown⟩ := holds.getScanCount (q := q) ok
      exact ⟨_, rfl, kept, shown⟩

/-- After `scan_start`, in whatever state, a run goes on whose steps are all in order: each uses the entries that
there are, and `getScanCount` counts what was heard since the last start. -/
theorem scan_results_right (q : Qsort) (fuel : Nat) (enough : 2 ^ 32 ≤ fuel) (s : Station) (es : List Event) (e : Event)
    (permitted : Run.Permitted Ok (step q fuel) (scanStart s) (es ++ [e])) :
    ∃ s' r, Run.last? (step q fuel) (scanStart s) es = some s' ∧ step q fuel s' e = some r ∧
      Shown (es.foldl (heard fuel) []) e r :=
  Run.permitted_last Holds Ok (step q fuel) (heard fuel) Shown
    (fun _ _ e holds ok => holds.step enough e ok) es e [] (scanStart s) (scanStart_holds s) permitted

theorem lt_of_memcmp {a b : List Byte} (above : 0 < memcmp a b) : b.map UInt8.toNat < a.map UInt8.toNat := by
  induction a generalizing b with
  | nil => exact absurd above (Int.lt_irrefl 0)
  | cons x a ih =>
      cases b with
      | nil => exact absurd above (Int.lt_irrefl 0)
      | cons y b =>
          rw [memcmp] at above
          split at above
          · next equal =>
              rw [equal]
              exact List.Lex.cons (ih above)
          · exact List.Lex.rel (by omega)

def insertion : Qsort where
  sort := List.insertionSort fun a b => (bssidOf a).map UInt8.toNat ≤ (bssidOf b).map UInt8.toNat
  perm := List.perm_insertionSort _
  sorted := by
    intro entries _
    apply (List.pairwise_insertionSort _ entries).imp
    intro a b le
    exact Int.not_lt.mp (fun above => absurd (lt_of_memcmp above) (not_lt_of_ge le))

def scanEvent : EventInfo := { chan := sdpcmChanEvt, eventType := wlcEEscanResult }

/-- A result for the network with this last byte of its BSSID. -/
def network (b : Byte) : Event := .frame scanEvent ⟨8, Memory.write twoElements 8 [2, 0, 0, 0, 0, b]⟩

/-- Three results of two networks. -/
theorem scan_results_twoNetworks : ∃ s' r,
    Run.last? (step insertion (2 ^ 32)) (scanStart {}) [network 1, network 2, network 1] = some s' ∧
      step insertion (2 ^ 32) s' .getScanCount = some r ∧ r.1.ret = 2 := by
  obtain ⟨s', r, ran, counted, shown⟩ := scan_results_right insertion (2 ^ 32) (by decide) {}
    [network 1, network 2, network 1] .getScanCount (by decide)
  exact ⟨s', r, ran, counted, (shown.counted rfl).exact.trans (by decide)⟩

/-- A network that is alone is not counted. -/
theorem scan_oneNetwork_lost : ∃ s' r,
    Run.last? (step insertion (2 ^ 32)) (scanStart {}) [network 1] = some s' ∧
      step insertion (2 ^ 32) s' .getScanCount = some r ∧
      ¬ Counted ([network 1].foldl (heard (2 ^ 32)) []) r.1.ret r.2.filtered := by
  refine ⟨_, _, rfl, rfl, fun counted => ?_⟩
  have none : (0 : Int) = (([network 1].foldl (heard (2 ^ 32)) []).map Result.bssid).dedup.length := counted.exact
  exact absurd none (by decide)

end QNEthernet.Drivers.Cyw43.Scan
