import LineSpec.Spec.Document
/-!
# Rendering an item

The content that a body asks for: its lines with their placeholders resolved, each ended by a line
feed. A body with a skip asks for no particular content.
-/

namespace LineSpec

/-- Why a body has no content, where resolving a line may be refused with an `ε`. -/
inductive RenderError (ε : Type) where
  /-- A skip, at this line of the specification. -/
  | skip (line : Int)
  | unresolved (e : ε)
  deriving DecidableEq, Repr

namespace Body

variable {ε : Type}

/-- The lines of a body with their placeholders resolved. -/
def resolved (resolve : Text → Except ε Text) : Body → Except (RenderError ε) (List Text)
  | [] => .ok []
  | .skip line :: _ => .error (.skip line)
  | .literal text _ :: body =>
    match resolve text with
    | .error e => .error (.unresolved e)
    | .ok l => (resolved resolve body).map (l :: ·)

/-- The content that a body asks for. -/
def render (resolve : Text → Except ε Text) (body : Body) : Except (RenderError ε) Text :=
  (resolved resolve body).map fun ls => ls.flatMap (· ++ "\n")

end Body

end LineSpec
