import Mathlib.Data.List.Basic
import NativeBindings.Layout.Cache

/-!
Which questions about one header are kept in one slot. Apart from a question itself there is just
one: the size of a record and the size of the member of the same name in the record around it.
-/
namespace NativeBindings.Layout

namespace Query

/-- A question that names types and members by texts, those of members without a colon as those of
all identifiers are. -/
inductive Plain : Query → Prop
  | sizeOf (type : String) : Plain (.sizeOf (.str type))
  | offsetOf (type field : String) (simple : ':' ∉ field.toList) :
    Plain (.offsetOf (.str type) (.str field))
  | fieldSizeOf (type field : String) (simple : ':' ∉ field.toList) :
    Plain (.fieldSizeOf (.str type) (.str field))

/-- Whether one question is about a record inside another one, and the other about a member of the
outer record that goes by the name of the inner. -/
def collides : Query → Query → Bool
  | .sizeOf (.str type), .fieldSizeOf (.str outer) (.str inner)
  | .fieldSizeOf (.str outer) (.str inner), .sizeOf (.str type) => type == outer ++ "::" ++ inner
  | _, _ => false

theorem collides_record (outer inner : String) :
    collides (.sizeOf (.str (outer ++ "::" ++ inner))) (.fieldSizeOf (.str outer) (.str inner)) =
      true := beq_self_eq_true _

theorem collides_member (outer inner : String) :
    collides (.fieldSizeOf (.str outer) (.str inner)) (.sizeOf (.str (outer ++ "::" ++ inner))) =
      true := beq_self_eq_true _

end Query

/-- The last colon of a text ends its first part. -/
theorem append_colon_inj {front front' back back' : List Char} (simple : ':' ∉ back)
    (simple' : ':' ∉ back') (same : front ++ ':' :: back = front' ++ ':' :: back') :
    front = front' ∧ back = back' := by
  have flipped := congrArg List.reverse same
  simp only [List.reverse_append, List.reverse_cons, List.append_assoc, List.singleton_append] at flipped
  have plain {cs : List Char} (simple : ':' ∉ cs) (rest : List Char) :
      (cs.reverse ++ ':' :: rest).takeWhile (· != ':') = cs.reverse := by
    have all : ∀ c ∈ cs.reverse, (c != ':') = true := by
      intro c member
      have apart : c ≠ ':' := fun wrong => simple (wrong ▸ List.mem_reverse.mp member)
      simpa using apart
    rw [List.takeWhile_append_of_pos all, List.takeWhile_cons_of_neg (by decide), List.append_nil]
  have backs : back = back' := by
    rw [← List.reverse_inj, ← plain simple front.reverse, flipped, plain simple' front'.reverse]
  subst backs
  exact ⟨List.append_cancel_right same, rfl⟩

theorem join_inj {type type' field field' : String} (simple : ':' ∉ field.toList)
    (simple' : ':' ∉ field'.toList) (same : type ++ "::" ++ field = type' ++ "::" ++ field') :
    type = type' ∧ field = field' := by
  have letters := congrArg String.toList same
  have split (s t : String) : (s ++ "::" ++ t).toList = (s.toList ++ [':']) ++ ':' :: t.toList := by
    simp
  rw [split, split] at letters
  obtain ⟨types, fields⟩ := append_colon_inj simple simple' letters
  exact ⟨String.toList_inj.mp (List.append_cancel_right types), String.toList_inj.mp fields⟩

section
variable {header : String}

theorem slot_sizeOf (type : String) :
    slot header (.sizeOf (.str type)) = .ok (.size (header ++ "::" ++ type)) := rfl

theorem joined_eq (type field : String) :
    header ++ "::" ++ (type ++ "::" ++ field) = header ++ "::" ++ type ++ "::" ++ field := by
  simp only [String.append_assoc]

theorem slot_offsetOf (type field : String) :
    slot header (.offsetOf (.str type) (.str field)) =
      .ok (.offset (header ++ "::" ++ (type ++ "::" ++ field))) := by
  rw [joined_eq]
  rfl

theorem slot_fieldSizeOf (type field : String) :
    slot header (.fieldSizeOf (.str type) (.str field)) =
      .ok (.size (header ++ "::" ++ (type ++ "::" ++ field))) := by
  rw [joined_eq]
  rfl

namespace Query

theorem Plain.slot {query : Query} (plain : query.Plain) (header : String) :
    ∃ place, slot header query = .ok place := by
  cases plain with
  | sizeOf type => exact ⟨_, slot_sizeOf type⟩
  | offsetOf type field => exact ⟨_, slot_offsetOf type field⟩
  | fieldSizeOf type field => exact ⟨_, slot_fieldSizeOf type field⟩

end Query

theorem size_inj {s t : String} (same : (Except.ok (.size (header ++ "::" ++ s)) : Except Fault Slot) =
    .ok (.size (header ++ "::" ++ t))) : s = t :=
  (String.append_right_inj _).mp (Slot.size.inj (Except.ok.inj same))

theorem offset_inj {s t : String}
    (same : (Except.ok (.offset (header ++ "::" ++ s)) : Except Fault Slot) =
      .ok (.offset (header ++ "::" ++ t))) : s = t :=
  (String.append_right_inj _).mp (Slot.offset.inj (Except.ok.inj same))

theorem slot_of_collides {first second : Query} (plain : first.Plain) (plain' : second.Plain)
    (collides : first.collides second = true) : slot header first = slot header second := by
  cases plain with
  | sizeOf type =>
    cases plain' with
    | fieldSizeOf outer inner =>
      rw [slot_sizeOf, slot_fieldSizeOf, eq_of_beq (show (type == _) = true from collides)]
    | sizeOf => cases collides
    | offsetOf => cases collides
  | offsetOf => cases collides
  | fieldSizeOf outer inner =>
    cases plain' with
    | sizeOf type =>
      rw [slot_sizeOf, slot_fieldSizeOf, eq_of_beq (show (type == _) = true from collides)]
    | offsetOf => cases collides
    | fieldSizeOf => cases collides

/-- Two questions are kept in one slot just if they are one question or collide. -/
theorem slot_eq_iff {first second : Query} (plain : first.Plain) (plain' : second.Plain) :
    slot header first = slot header second ↔ first = second ∨ first.collides second = true := by
  constructor
  · intro same
    cases plain with
    | sizeOf type =>
      rw [slot_sizeOf] at same
      cases plain' with
      | sizeOf type' =>
        rw [slot_sizeOf] at same
        obtain rfl := size_inj same
        exact .inl rfl
      | offsetOf outer inner =>
        rw [slot_offsetOf] at same
        cases same
      | fieldSizeOf outer inner =>
        rw [slot_fieldSizeOf] at same
        obtain rfl := size_inj same
        exact .inr (Query.collides_record outer inner)
    | offsetOf type field simple =>
      rw [slot_offsetOf] at same
      cases plain' with
      | offsetOf type' field' simple' =>
        rw [slot_offsetOf] at same
        obtain ⟨rfl, rfl⟩ := join_inj simple simple' (offset_inj same)
        exact .inl rfl
      | sizeOf type' =>
        rw [slot_sizeOf] at same
        cases same
      | fieldSizeOf type' field' =>
        rw [slot_fieldSizeOf] at same
        cases same
    | fieldSizeOf type field simple =>
      rw [slot_fieldSizeOf] at same
      cases plain' with
      | sizeOf type' =>
        rw [slot_sizeOf] at same
        obtain rfl := size_inj same
        exact .inr (Query.collides_member type field)
      | offsetOf type' field' =>
        rw [slot_offsetOf] at same
        cases same
      | fieldSizeOf type' field' simple' =>
        rw [slot_fieldSizeOf] at same
        obtain ⟨rfl, rfl⟩ := join_inj simple simple' (size_inj same)
        exact .inl rfl
  · rintro (rfl | collides)
    · rfl
    · exact slot_of_collides plain plain' collides

end

end NativeBindings.Layout
