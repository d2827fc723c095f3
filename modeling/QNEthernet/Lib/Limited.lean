import QNEthernet.Lib.Run

/-! Pieces that are put together up to a limit: each is cut to the room that is left. -/

namespace QNEthernet.Limited

variable {α : Type} (limit : Nat)

/-- How much of a piece is taken, and what there is then. -/
def put (values piece : List α) : Nat × List α :=
  (min (limit - values.length) piece.length, values ++ piece.take (limit - values.length))

theorem put_length (values piece : List α) : (put limit values piece).2.length = values.length + (put limit values piece).1 := by
  rw [put, List.length_append, List.length_take]

theorem put_atMost {values : List α} (atMost : values.length ≤ limit) (piece : List α) :
    (put limit values piece).2.length ≤ limit := by
  rw [put_length, put]
  omega

theorem put_nothing {values piece : List α} (none : min (limit - values.length) piece.length = 0) :
    put limit values piece = (0, values) := by
  have nothing : piece.take (limit - values.length) = [] := by
    apply List.length_eq_zero_iff.mp
    rw [List.length_take, none]
  rw [put, none, nothing, List.append_nil]

theorem put_take (values piece : List α) : (put limit (values.take limit) piece).2 = (values ++ piece).take limit := by
  have room : limit - min limit values.length = limit - values.length := by omega
  rw [put, List.length_take, List.take_append, room]

variable {ε : Type} (piece : ε → List α)

theorem trace_put (values : List α) (es : List ε) :
    (Run.trace (fun values e => put limit values (piece e)) (values.take limit) es).2 =
      (values ++ es.flatMap piece).take limit := by
  induction es generalizing values with
  | nil => rw [List.flatMap_nil, List.append_nil, Run.trace]
  | cons e es ih =>
      calc (Run.trace (fun values e => put limit values (piece e)) (values.take limit) (e :: es)).2
          = (Run.trace (fun values e => put limit values (piece e)) (put limit (values.take limit) (piece e)).2 es).2 := rfl
        _ = (Run.trace (fun values e => put limit values (piece e)) ((values ++ piece e).take limit) es).2 := by
            rw [put_take]
        _ = (values ++ (e :: es).flatMap piece).take limit := by
            rw [ih, List.flatMap_cons, List.append_assoc]

theorem trace_put_sum (values : List α) (es : List ε) :
    values.length + (Run.trace (fun values e => put limit values (piece e)) values es).1.sum =
      (Run.trace (fun values e => put limit values (piece e)) values es).2.length := by
  induction es generalizing values with
  | nil => rfl
  | cons e es ih =>
      calc values.length + (Run.trace (fun values e => put limit values (piece e)) values (e :: es)).1.sum
          = values.length + (put limit values (piece e)).1 +
              (Run.trace (fun values e => put limit values (piece e)) (put limit values (piece e)).2 es).1.sum := by
            rw [Run.trace, List.sum_cons, Nat.add_assoc]
        _ = (Run.trace (fun values e => put limit values (piece e)) (put limit values (piece e)).2 es).2.length := by
            rw [← put_length, ih]

end QNEthernet.Limited
