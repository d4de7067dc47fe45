import LineSpec.Spec.Parser
import Mathlib.Logic.Function.Iterate
/-!
# Reading tokens one at a time

A document can be read with nothing but a position in the list of its tokens: the reader looks at
the token there, takes it up where it fits, and otherwise goes on to the next part of the item or to
the next item. Behind the last token the reader sees an end, whatever the list holds.
-/

namespace LineSpec.Document

namespace Cursor

/-- What the reader is about to look at, and what it has read so far. -/
inductive State where
  /-- The beginning of an item, or the end. -/
  | between (pos : Nat) (items : List Item)
  /-- A token behind the parameters of `item`. -/
  | params (pos : Nat) (items : List Item) (item : Item)
  /-- A token behind the body of `item`. -/
  | body (pos : Nat) (items : List Item) (item : Item)
  | ended (result : Except ParseError Document)

/-- The token at a position. -/
def tokenAt (ts : List Token) (pos : Nat) : Token :=
  ts[pos]?.getD ⟨.finish, [], -1⟩

/-- One look at the token at the position. -/
def step (c : Conventions) (source : Option Text) (ts : List Token) : State → State
  | .between pos items =>
    let t := tokenAt ts pos
    match t.kind with
    | .finish => .ended (.ok ⟨items, source⟩)
    | _ => .params pos items { line := t.line }
  | .params pos items item =>
    let t := tokenAt ts pos
    match t.kind with
    | .marker =>
      match Item.addParam c source item.params t with
      | .error e => .ended (.error e)
      | .ok params => .params (pos + 1) items { item with params }
    | _ => .body pos items item
  | .body pos items item =>
    let t := tokenAt ts pos
    match t.kind with
    | .skip | .text =>
      .body (pos + 1) items { item with body := item.body ++ [Item.entryOfToken t] }
    | _ => .between pos (items ++ [item])
  | .ended result => .ended result

/-- The state in which the reader begins. -/
def start : State := .between 0 []

end Cursor

/-- `EndsWithin c source ts bound result`: the reader of the tokens `ts` comes to `result` after at
most `bound` steps. -/
def EndsWithin (c : Conventions) (source : Option Text) (ts : List Token) (bound : Nat)
    (result : Except ParseError Document) : Prop :=
  ∃ n ≤ bound, (Cursor.step c source ts)^[n] Cursor.start = .ended result

end LineSpec.Document
