import QNEthernet.Lib.Run
import Mathlib.Data.List.Chain

/-! `chrono_steady_clock` of `util/chrono_clocks.h`: a 32-bit counter that wraps, read with interrupts off
and carried on as 64 bits. -/

namespace QNEthernet.Util

structure SteadyClock where
  prevLow : UInt32 := 0
  high : UInt32 := 0

namespace SteadyClock

/-- `TimeFunc()`, after so many steps of the counter. -/
def timeFunc (ticks : Nat) : UInt32 := .ofNat ticks

def poll (s : SteadyClock) (ticks : Nat) : Int64 × SteadyClock :=
  let low := timeFunc ticks
  -- Roll over
  let high := if low < s.prevLow then s.high + 1 else s.high
  let t := (high.toUInt64 <<< 32) ||| low.toUInt64
  (t.toInt64, { prevLow := low, high := high })

def polls (s : SteadyClock) (ticks : List Nat) : List Int64 := (Run.trace poll s ticks).1

structure Follows (s : SteadyClock) (ticks : Nat) : Prop where
  low : s.prevLow = timeFunc ticks
  high : s.high = .ofNat (ticks / 2 ^ 32)

theorem turns_eq {period last ticks : Nat} (later : last ≤ ticks) (soon : ticks < last + period) :
    ticks / period = last / period + if ticks % period < last % period then 1 else 0 := by
  have pos : 0 < period := by omega
  have now := Nat.div_add_mod ticks period
  have before := Nat.div_add_mod last period
  have inside := Nat.mod_lt ticks pos
  have inside' := Nat.mod_lt last pos
  have atLeast : last / period ≤ ticks / period := Nat.div_le_div_right later
  have atMost : ticks / period ≤ last / period + 1 := by
    rw [← Nat.add_div_right last pos]
    exact Nat.div_le_div_right soon.le
  rcases Nat.eq_or_lt_of_le atLeast with same | more
  · rw [← same] at now
    rw [if_neg (by omega), Nat.add_zero, same]
  · have next : ticks / period = last / period + 1 := by omega
    rw [next, Nat.mul_add] at now
    rw [if_pos (by omega), next]

theorem timeFunc_lt {last ticks : Nat} :
    timeFunc ticks < timeFunc last ↔ ticks % 2 ^ 32 < last % 2 ^ 32 := by
  rw [UInt32.lt_iff_toNat_lt, timeFunc, timeFunc, UInt32.toNat_ofNat', UInt32.toNat_ofNat']

/-- Both halves together are the count. -/
theorem halves_eq {ticks : Nat} (short : ticks < 2 ^ 63) :
    ((UInt32.ofNat (ticks / 2 ^ 32)).toUInt64 <<< 32) ||| (timeFunc ticks).toUInt64 = .ofNat ticks := by
  have small : ticks % 2 ^ 32 < 2 ^ 32 := Nat.mod_lt ticks (by decide)
  have turns : ticks / 2 ^ 32 < 2 ^ 32 := by omega
  apply UInt64.toNat_inj.mp
  rw [UInt64.toNat_or, UInt64.toNat_shiftLeft, UInt32.toNat_toUInt64, UInt32.toNat_toUInt64, timeFunc,
    UInt32.toNat_ofNat', UInt32.toNat_ofNat', UInt64.toNat_ofNat', Nat.mod_eq_of_lt turns]
  calc (ticks / 2 ^ 32) <<< 32 % 2 ^ 64 ||| ticks % 2 ^ 32
      = (ticks / 2 ^ 32) <<< 32 ||| ticks % 2 ^ 32 := by
        rw [Nat.mod_eq_of_lt (by rw [Nat.shiftLeft_eq]; omega)]
    _ = (ticks / 2 ^ 32) <<< 32 + ticks % 2 ^ 32 := (Nat.shiftLeft_add_eq_or_of_lt small _).symm
    _ = ticks := by rw [Nat.shiftLeft_eq, Nat.div_add_mod' ticks]
    _ = ticks % 2 ^ 64 := (Nat.mod_eq_of_lt (by omega)).symm

theorem poll_exact {s : SteadyClock} {last ticks : Nat} (follows : Follows s last) (later : last ≤ ticks)
    (soon : ticks < last + 2 ^ 32) (short : ticks < 2 ^ 63) :
    (s.poll ticks).1 = .ofNat ticks ∧ Follows (s.poll ticks).2 ticks := by
  have turns := turns_eq later soon
  have high : (if timeFunc ticks < s.prevLow then s.high + 1 else s.high) = .ofNat (ticks / 2 ^ 32) := by
    rw [follows.low, follows.high, turns]
    simp only [timeFunc_lt]
    split
    · exact (UInt32.ofNat_add _ 1).symm
    · rfl
  have value : (s.poll ticks).1 = (UInt64.ofNat ticks).toInt64 := by
    simp only [poll, high, halves_eq short]
  exact ⟨value, rfl, high⟩

theorem start_follows : Follows {} 0 := ⟨rfl, rfl⟩

/-- Polls less than a period apart, the first less than one from the start. -/
structure Polled (ticks : List Nat) : Prop where
  first : ∀ t ∈ ticks.head?, t < 2 ^ 32
  gaps : ticks.IsChain fun t t' => t ≤ t' ∧ t' < t + 2 ^ 32
  total : ∀ t ∈ ticks, t < 2 ^ 63

theorem polls_eq {s : SteadyClock} {last : Nat} {ticks : List Nat} (follows : Follows s last)
    (gaps : (last :: ticks).IsChain fun t t' => t ≤ t' ∧ t' < t + 2 ^ 32) (total : ∀ t ∈ ticks, t < 2 ^ 63) :
    polls s ticks = ticks.map Int64.ofNat := by
  induction ticks generalizing s last with
  | nil => rfl
  | cons t ticks ih =>
      obtain ⟨gap, gaps⟩ := List.isChain_cons_cons.mp gaps
      obtain ⟨short, total⟩ := List.forall_mem_cons.mp total
      obtain ⟨exact, follows⟩ := poll_exact follows gap.1 gap.2 short
      calc polls s (t :: ticks) = (s.poll t).1 :: polls (s.poll t).2 ticks := rfl
        _ = .ofNat t :: ticks.map Int64.ofNat := by rw [exact, ih follows gaps total]
        _ = (t :: ticks).map Int64.ofNat := List.map_cons.symm

theorem Polled.polls_eq {ticks : List Nat} (polled : Polled ticks) : polls {} ticks = ticks.map Int64.ofNat := by
  have gaps : (0 :: ticks).IsChain fun t t' => t ≤ t' ∧ t' < t + 2 ^ 32 :=
    List.isChain_cons.mpr ⟨fun t head => ⟨Nat.zero_le t, by have := polled.first t head; omega⟩, polled.gaps⟩
  exact SteadyClock.polls_eq start_follows gaps polled.total

theorem Polled.sorted {ticks : List Nat} (polled : Polled ticks) : ticks.Pairwise (· ≤ ·) :=
  List.isChain_iff_pairwise.mp (polled.gaps.imp fun _ _ => And.left)

theorem sub_exact {t t' : Nat} (short : t < 2 ^ 63) (short' : t' < 2 ^ 63) :
    (Int64.ofNat t' - Int64.ofNat t).toInt = (t' : Int) - t := by
  rw [Int64.toInt_sub, Int64.toInt_ofNat_of_lt short, Int64.toInt_ofNat_of_lt short']
  exact Int.bmod_eq_of_le (by omega) (by omega)

/-- The polls return the true counts: they never go back, their differences are exact, and their low halves are
what `TimeFunc()` returned. -/
theorem polls_exact (ticks : List Nat) (polled : Polled ticks) :
    let answers := polls {} ticks
    answers.map Int64.toInt = ticks.map Nat.cast ∧
      answers.Pairwise (· ≤ ·) ∧
      (∀ i < ticks.length, ∀ j < ticks.length,
        (answers.getD j 0 - answers.getD i 0).toInt = (ticks.getD j 0 : Int) - ticks.getD i 0) ∧
      answers.map (fun t => t.toUInt64.toUInt32) = ticks.map timeFunc := by
  have value (t : Nat) (member : t ∈ ticks) : (Int64.ofNat t).toInt = t :=
    Int64.toInt_ofNat_of_lt (polled.total t member)
  dsimp only
  rw [polled.polls_eq]
  refine ⟨?_, ?_, ?_, ?_⟩
  · rw [List.map_map]
    exact List.map_congr_left value
  · apply List.pairwise_map.mpr
    apply polled.sorted.imp_of_mem
    intro t t' member member' le
    rw [Int64.le_iff_toInt_le, value t member, value t' member']
    exact Int.ofNat_le.mpr le
  · intro i inside j inside'
    simp only [List.getD_eq_getElem?_getD, List.getElem?_map, List.getElem?_eq_getElem inside,
      List.getElem?_eq_getElem inside', Option.map_some, Option.getD_some]
    exact sub_exact (polled.total _ (List.getElem_mem inside)) (polled.total _ (List.getElem_mem inside'))
  · rw [List.map_map]
    apply List.map_congr_left
    intro t _
    exact UInt64.toUInt32_ofNat' t

/-- Two turns of the counter, the second gap one tick short of a period. -/
theorem polls_exact_twoTurns : (polls {} [7, 2 ^ 32 + 6, 2 ^ 33 + 5]).map Int64.toInt = [7, 2 ^ 32 + 6, 2 ^ 33 + 5] :=
  (polls_exact [7, 2 ^ 32 + 6, 2 ^ 33 + 5] ⟨by decide, by decide, by decide⟩).1

end SteadyClock
end QNEthernet.Util
