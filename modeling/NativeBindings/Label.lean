import NativeBindings.Json.Literal

/-!
Names of declarations, members and parameters, as the syntax tree gives them.
-/
namespace NativeBindings

/-- A name: a text, or null where there is none. Another value in its place keeps its form. -/
abbrev Label := Json

end NativeBindings
