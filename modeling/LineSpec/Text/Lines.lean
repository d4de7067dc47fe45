import LineSpec.Text.Basic
import LineSpec.Text.Search
/-!
# Lines of a text

A line ends with a line feed, alone or after a carriage return; what follows the last line feed is a
line too when it is not empty. There are two ways to the lines of a text. `lines` cuts a whole text.
`cut` only cuts it into chunks, after each line feed, and `bare` removes the terminator of one chunk
when that line is read. A carriage return that ends a line belongs to its terminator, at most one of
them. The way back is `written`, which puts lines one after the other, each with its terminator.
-/

namespace LineSpec.Text

/-! ## Cutting after each line feed -/

/-- `cut t` are the chunks of `t`, each ending with its line feed. Joining the chunks gives `t` back
(`flatten_cut`). -/
def cut : Text → List Text
  | [] => []
  | c :: cs =>
    if c = '\n' then [c] :: cut cs
    else match cut cs with
      | [] => [[c]]
      | l :: ls => (c :: l) :: ls

theorem flatten_cut (t : Text) : (cut t).flatten = t := by
  induction t with
  | nil => rfl
  | cons c cs ih =>
    rw [cut]
    split
    · simp [ih]
    · split
      · next h =>
        rw [h] at ih
        simp [← ih]
      · next h =>
        rw [h] at ih
        simp only [List.flatten_cons, List.cons_append] at ih ⊢
        rw [ih]

/-! ## Removing a terminator -/

/-- `bare t` is the chunk `t` without its terminator: one line feed, then one carriage return. -/
def bare (t : Text) : Text :=
  dropLast? (dropLast? t '\n') '\r'

/-! ## Cutting a whole text -/

/-- `lines t` are the lines of `t`: the texts between its line feeds, without an empty last one,
each without the carriage return that ends it. -/
def lines (t : Text) : List Text :=
  let ls := pieces t '\n'
  (if ls.getLast? = some [] then ls.dropLast else ls).map fun l => dropLast? l '\r'

/-! ## Writing lines -/

/-- How a written line ends. -/
inductive LineEnd where
  | feed
  | returnFeed
  deriving DecidableEq, Repr

/-- The text of a line's end. -/
def LineEnd.text : LineEnd → Text
  | feed => "\n"
  | returnFeed => "\r\n"

/-- Lines one after the other, each with its end. -/
def written (ls : List (Text × LineEnd)) : Text :=
  ls.flatMap fun l => l.1 ++ l.2.text

end LineSpec.Text
