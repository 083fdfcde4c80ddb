import LittleComputer.Text

/-! # Plain text

Text for a terminal may hold control sequences: an escape, a bracket, parameters from `0` to `?`,
intermediates from the space to `/` and a final character from `@` to `~`. `Text.plain` is what is
left without them. -/

namespace LittleComputer.Text
set_option autoImplicit false

/-- What follows a control sequence, given the text behind its bracket. -/
def sequenceTail? (text : Text) : Option Text :=
  let final :=
    (text.dropWhile fun c => '0' ≤ c && c ≤ '?').dropWhile fun c => ' ' ≤ c && c ≤ '/'
  match final with
  | c :: rest => if '@' ≤ c ∧ c ≤ '~' then some rest else none
  | [] => none

theorem sequenceTail?_length_lt {text rest : Text} (h : sequenceTail? text = some rest) :
    rest.length < text.length := by
  simp only [sequenceTail?] at h
  split at h
  · next c tail htail =>
    split at h
    · injection h with h
      subst h
      have h1 := congrArg List.length htail
      have h2 := (List.dropWhile_sublist (l := text.dropWhile fun c => '0' ≤ c && c ≤ '?')
        fun c => ' ' ≤ c && c ≤ '/').length_le
      have h3 := (List.dropWhile_sublist (l := text) fun c => '0' ≤ c && c ≤ '?').length_le
      rw [List.length_cons] at h1
      omega
    · simp at h
  · simp at h

/-- What follows a control sequence at the head of a text. -/
def afterSequence? : Text → Option Text
  | escape :: '[' :: body => if escape.toNat = 0x1B then sequenceTail? body else none
  | _ => none

theorem afterSequence?_length_lt {text rest : Text} (h : afterSequence? text = some rest) :
    rest.length < text.length := by
  unfold afterSequence? at h
  split at h
  · split at h
    · have := sequenceTail?_length_lt h
      simp only [List.length_cons]
      omega
    · simp at h
  · simp at h

def plain (text : Text) : Text :=
  match _sequence : afterSequence? text with
  | some rest => plain rest
  | none =>
    match text with
    | [] => []
    | c :: rest => c :: plain rest
termination_by text.length
decreasing_by
  · exact afterSequence?_length_lt _sequence
  · simp

end LittleComputer.Text
