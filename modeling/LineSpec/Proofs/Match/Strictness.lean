import LineSpec.Proofs.Match.Diagnosis
import LineSpec.Proofs.Template.Decomposition
/-!
# Asking for the end of the input

Conventions that differ only in whether a match has to reach the end of its input. They resolve
placeholders alike, so a match under one of them can be compared with a match under the other.
-/

namespace LineSpec

/-- The conventions `c` with another answer to whether a match has to reach the end. -/
def Conventions.withEnd (c : Conventions) (strictEnd : Bool) : Conventions :=
  { c with strictEnd }

namespace Template

variable (c : Conventions) (strictEnd : Bool)

theorem scanFrom_withEnd (offset : Nat) (t : Text) :
    scanFrom (c.withEnd strictEnd) offset t = scanFrom c offset t := by
  fun_induction scanFrom c offset t with
  | case1 offset t hopen =>
    exact scanFrom_of_not_infix offset (Text.splitFirst?_eq_none_iff.1 hopen)
  | case2 offset t before after hopen hclose =>
    exact scanFrom_of_unclosed offset (Text.splitFirst?_eq_some_iff.1 hopen)
      (Text.splitFirst?_eq_none_iff.1 hclose)
  | case3 offset t before after hopen raw rest hclose name hname =>
    rw [scanFrom_of_closed (c := c.withEnd strictEnd) offset (Text.splitFirst?_eq_some_iff.1 hopen)
      (Text.splitFirst?_eq_some_iff.1 hclose), if_pos (List.isEmpty_iff.1 hname)]
  | case4 offset t before after hopen raw rest hclose name hname next ih =>
    rw [scanFrom_of_closed (c := c.withEnd strictEnd) offset (Text.splitFirst?_eq_some_iff.1 hopen)
      (Text.splitFirst?_eq_some_iff.1 hclose), if_neg (fun h => hname (List.isEmpty_iff.2 h)), ih]

end Template

/-- Resolving does not depend on whether a match has to reach the end. -/
@[simp] theorem Conventions.resolve_withEnd (c : Conventions) (strictEnd : Bool)
    (vars : Bindings Text) : (c.withEnd strictEnd).resolve vars = c.resolve vars := by
  funext text
  rw [resolve, resolve, Template.substitute, Template.substitute, Template.scan, Template.scan,
    Template.scanFrom_withEnd]

end LineSpec
