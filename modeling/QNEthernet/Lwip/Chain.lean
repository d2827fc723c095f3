import QNEthernet.Lwip.Pbuf

/-! Reading from a chain of pbufs, link by link: what comes out is what the bytes in a row give. -/

namespace QNEthernet.Lwip

/-- `pbuf_skip_const`: the chain from the link on that holds the offset, and the offset in it. -/
def pbufSkip : List (List Byte) → Nat → List (List Byte) × Nat
  | [], offset => ([], offset)
  | q :: next, offset => if q.length ≤ offset then pbufSkip next (offset - q.length) else (q :: next, offset)

def pbufTryGetAt (p : List (List Byte)) (offset : Nat) : Option Byte :=
  match pbufSkip p offset with
  | ([], _) => none
  | (q :: _, i) => if i < q.length then q[i]? else none

def pbufGetAt (p : List (List Byte)) (offset : Nat) : Byte := (pbufTryGetAt p offset).getD 0

/-- The loop of `pbuf_copy_partial`, with `left` bytes of `dataptr` written so far. -/
def copyPartialLoop (dataptr : List Byte) (copied left len offset : Nat) :
    List (List Byte) → Nat × List Byte
  | [] => (copied, dataptr)
  | p :: next =>
      if len = 0 then (copied, dataptr)
      else if offset ≠ 0 ∧ p.length ≤ offset then
        -- don't copy from this buffer -> on to the next
        copyPartialLoop dataptr copied left len (offset - p.length) next
      else
        let count := min (p.length - offset) len
        copyPartialLoop (Ring.overwrite dataptr left ((p.drop offset).take count)) (copied + count)
          (left + count) (len - count) 0 next

def pbufCopyPartial (buf : List (List Byte)) (dataptr : List Byte) (len offset : Nat) : Nat × List Byte :=
  copyPartialLoop dataptr 0 0 len offset buf

theorem pbufTryGetAt_eq (p : List (List Byte)) (offset : Nat) : pbufTryGetAt p offset = p.flatten[offset]? := by
  induction p generalizing offset with
  | nil => rfl
  | cons q next step =>
    rw [List.flatten_cons]
    by_cases behind : q.length ≤ offset
    · rw [List.getElem?_append_right behind, ← step (offset - q.length), pbufTryGetAt, pbufSkip, if_pos behind,
        ← pbufTryGetAt]
    · rw [List.getElem?_append_left (by omega), pbufTryGetAt, pbufSkip, if_neg behind]
      exact if_pos (by omega)

theorem pbufGetAt_eq (p : List (List Byte)) (offset : Nat) : pbufGetAt p offset = p.flatten.getD offset 0 := by
  rw [pbufGetAt, pbufTryGetAt_eq, List.getD_eq_getElem?_getD]

theorem Pbuf.getAt_eq (p : Pbuf) (offset : Nat) : pbufGetAt p.links offset = p.bytes.getD offset 0 :=
  pbufGetAt_eq p.links offset

theorem copyPartialLoop_eq (dataptr : List Byte) (copied left len offset : Nat) (p : List (List Byte))
    (room : left + len ≤ dataptr.length) :
    copyPartialLoop dataptr copied left len offset p =
      (copied + ((p.flatten.drop offset).take len).length,
        Ring.overwrite dataptr left ((p.flatten.drop offset).take len)) := by
  induction p generalizing dataptr copied left len offset with
  | nil => simp [copyPartialLoop, Ring.overwrite]
  | cons q next step =>
    rw [copyPartialLoop, List.flatten_cons]
    by_cases done : len = 0
    · subst done
      simp [Ring.overwrite]
    · rw [if_neg done]
      by_cases behind : offset ≠ 0 ∧ q.length ≤ offset
      · have rest : (q ++ next.flatten).drop offset = next.flatten.drop (offset - q.length) := by
          rw [List.drop_append, List.drop_of_length_le behind.2, List.nil_append]
        rw [if_pos behind, step _ _ _ _ _ room, rest]
      · have start : offset ≤ q.length := by omega
        obtain ⟨count, least⟩ : ∃ count, count = min (q.length - offset) len := ⟨_, rfl⟩
        obtain ⟨piece, taken⟩ : ∃ piece, piece = (q.drop offset).take count := ⟨_, rfl⟩
        have length : piece.length = count := by
          rw [taken, List.length_take, List.length_drop]
          omega
        have whole : ((q ++ next.flatten).drop offset).take len = piece ++ next.flatten.take (len - count) := by
          have first : (q.drop offset).take len = piece := by
            rw [taken, least, List.take_eq_take_iff, List.length_drop]
            omega
          have others : len - (q.length - offset) = len - count := by omega
          rw [List.drop_append_of_le_length start, List.take_append, first, List.length_drop, others]
        have fits : left + piece.length ≤ dataptr.length := by omega
        have kept : (Ring.overwrite dataptr left piece).length = dataptr.length :=
          Ring.length_overwrite dataptr left piece fits
        rw [if_neg behind, ← least]
        simp only [← taken]
        rw [step _ _ _ _ _ (by omega), whole, List.drop_zero, ← length,
          Ring.overwrite_overwrite dataptr left piece _ fits, List.length_append, Nat.add_assoc]

theorem pbufCopyPartial_eq (buf : List (List Byte)) (dataptr : List Byte) (len offset : Nat)
    (room : len ≤ dataptr.length) :
    pbufCopyPartial buf dataptr len offset =
      (((buf.flatten.drop offset).take len).length,
        Ring.overwrite dataptr 0 ((buf.flatten.drop offset).take len)) := by
  rw [pbufCopyPartial, copyPartialLoop_eq _ _ _ _ _ _ (by omega), Nat.zero_add]

theorem pbufCopyPartial_whole {buf : List (List Byte)} {dataptr : List Byte} {len offset : Nat}
    (exact : dataptr.length = len) (there : offset + len ≤ buf.flatten.length) :
    pbufCopyPartial buf dataptr len offset = (len, (buf.flatten.drop offset).take len) := by
  have length : ((buf.flatten.drop offset).take len).length = len := by
    rw [List.length_take, List.length_drop]
    omega
  rw [pbufCopyPartial_eq buf dataptr len offset exact.ge, Ring.overwrite_end _ _ _ (by omega), length,
    List.take_zero, List.nil_append]

end QNEthernet.Lwip
