import NativeBindings.Fault

/-!
The order of values. Truth values count as numbers; numbers are compared with numbers, texts with
texts and lists item by item, and nothing else has an order.
-/
namespace NativeBindings.Json

/-- The fault of asking for the order of values that have none. -/
def unordered {α : Type} (sign : String) (a b : Json) : Except Fault α :=
  .error (.mismatch (Text.quoted sign ++ " not supported between instances of " ++
    Text.quoted a.className ++ " and " ++ Text.quoted b.className))

mutual

/-- Whether a value is at or before another one. -/
def atOrBefore : Json → Json → Except Fault Bool
  | arr as, arr bs => itemsAtOrBefore as bs
  | str a, str b => .ok (a ≤ b)
  | a, b =>
    match a.integer?, b.integer? with
    | some m, some n => .ok (m ≤ n)
    | _, _ => unordered "<=" a b

/-- The first items that differ decide; a list is after its own starts. -/
def itemsAtOrBefore : List Json → List Json → Except Fault Bool
  | a :: as, b :: bs => if a == b then itemsAtOrBefore as bs else atOrBefore a b
  | as, _ => .ok as.isEmpty

end

/-- Whether all values of a row can be put in order: they are texts, or numbers. -/
def areOrdered : List Json → Except Fault Unit
  | a :: b :: rest =>
    match a, b with
    | str _, str _ => areOrdered (b :: rest)
    | _, _ =>
      if a.integer?.isSome && b.integer?.isSome then areOrdered (b :: rest) else unordered "<" b a
  | _ => .ok ()

/-- The order of texts, and that of numbers. -/
def isBefore : Json → Json → Bool
  | str a, str b => a ≤ b
  | a, b => a.integer?.getD 0 ≤ b.integer?.getD 0

/-- The values of a row in the order of their keys. -/
def orderedBy {α : Type} (key : α → Json) (values : List α) : Except Fault (List α) := do
  areOrdered (values.map key)
  return values.mergeSort fun a b => isBefore (key a) (key b)

def ordered (values : List Json) : Except Fault (List Json) := orderedBy id values

end NativeBindings.Json
