import NativeBindings.Emit.Carrier
import NativeBindings.Emit.Names

/-!
Type hints. They are never evaluated, so they may name what the module does not define.
-/
namespace NativeBindings.Emit

def pointerHint (isConst : Bool) (base : Label) : Label :=
  .str ((if isConst then "ConstPtrT" else "PtrT") ++ "[" ++ base.plain ++ "]")

/-- The hint for a function. Those of its parameters have to be texts; `result` comes after them. -/
def callableHint (parameters : List Label) (result : Except Fault Label) : Except Fault Label := do
  let taken ← Json.texts parameters
  return .str ("Callable[[" ++ ", ".intercalate taken ++ "], " ++ (← result).plain ++ "]")

/-- The identifier of a named node, or something else. -/
def identOr (header : Header) (other : Except Fault Label) : Except Fault Label :=
  if header.name.isNull then other else identOf header.name

mutual

/-- The hint for a type. Named types go by their names, except arrays. -/
def hint : CType → Except Fault Label
  | .synonym header target transparent =>
    if transparent then hint target else identOr header (.ok (.str "Any"))
  | .array _ item _ => do return .str ("list[" ++ (← hint item).plain ++ "]")
  | .pointer header none _ => identOr header (.ok (.str "Pointer"))
  | .pointer header (some base) isConst => identOr header ((hint base).map (pointerHint isConst))
  | .callback header _ result parameters =>
    identOr header (hints parameters >>= (callableHint · (hint result)))
  | .signature header result parameters =>
    identOr header (hints parameters >>= (callableHint · (hint result)))
  | .union header _ => identOr header (.ok (.str "dict[str, Any]"))
  | .builtin header carrier => identOr header (.ok (.str carrier.host))
  | .enum header _ | .record header _ | .bare header => identOr header (.ok (.str "Any"))

def hints : List (Parameter CType) → Except Fault (List Label)
  | [] => .ok []
  | parameter :: rest => do
    let first ← hint parameter.type
    return first :: (← hints rest)

end

def pointerHintTo (base : Option CType) (isConst : Bool) : Except Fault Label :=
  match base with
  | none => .ok (.str "Pointer")
  | some target => (hint target).map (pointerHint isConst)

def signatureHint (result : CType) (parameters : List (Parameter CType)) : Except Fault Label :=
  hints parameters >>= (callableHint · (hint result))

end NativeBindings.Emit
