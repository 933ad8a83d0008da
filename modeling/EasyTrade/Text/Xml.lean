import Mathlib.Data.List.Basic
import Mathlib.Tactic.Basic

/-!
# Documents of elements and text

Elements with their text and their children, written as an XML document, and a reader that
goes over a document character by character as the decoder of Go does. A document of names and
texts that need no escape is read back as the elements it was written from.

The reader knows elements without attributes, text, and the five named entities. Markup of
another kind it does not go into; it says so, apart from the errors that the decoder reports.
-/
namespace EasyTrade.Text

/-- An element: its name, the characters directly inside it, and its children. -/
inductive Element where
  | node (name text : List Char) (children : List Element)

namespace Element

mutual

/-- The document of an element, its text before its children. -/
def write : Element → List Char
  | .node name text children =>
    '<' :: name ++ '>' :: text ++ writeAll children ++ '<' :: '/' :: name ++ ['>']

/-- The documents of elements, one after the other. -/
def writeAll : List Element → List Char
  | [] => []
  | element :: others => element.write ++ writeAll others

end

/-- The name of an element. -/
def name : Element → List Char
  | .node name _ _ => name

/-- The characters directly inside an element. -/
def text : Element → List Char
  | .node _ text _ => text

/-- The children of an element. -/
def children : Element → List Element
  | .node _ _ children => children

/-- The children of a name. -/
def named (element : Element) (name : List Char) : List Element :=
  element.children.filter fun child => child.name = name

theorem writeAll_append (front back : List Element) :
    writeAll (front ++ back) = writeAll front ++ writeAll back := by
  induction front with
  | nil => simp [writeAll]
  | cons element others step => simp [writeAll, step]

end Element

/-! ## The reader -/

/-- Why a document is not read. -/
inductive Refusal where
  /-- The decoder reports an error. -/
  | syntaxError
  /-- The document has markup of another kind. -/
  | otherMarkup
deriving DecidableEq

/-- An element whose end was not met yet. -/
structure Frame where
  name : List Char
  text : List Char
  children : List Element

/-- What the reader is in the middle of. -/
inductive Mode where
  /-- Text: what was read of it, and the two characters before. -/
  | text (read : List Char) (b0 b1 : Char)
  /-- Markup, after its opening bracket. -/
  | markup (read : List Char)
  /-- An entity, after its ampersand, in the text before it. -/
  | entity (before name : List Char)

/-- The reader of a document. -/
structure Reader where
  /-- The open elements, the innermost first. -/
  frames : List Frame
  mode : Mode
  /-- The element that was read. -/
  done : Option Element

/-- A character may stand in a document. -/
def inCharacterRange (c : Char) : Bool :=
  c.toNat = 0x09 ∨ c.toNat = 0x0A ∨ c.toNat = 0x0D ∨ 0x20 ≤ c.toNat ∧ c.toNat ≤ 0xD7FF ∨
    0xE000 ≤ c.toNat ∧ c.toNat ≤ 0xFFFD ∨ 0x10000 ≤ c.toNat

/-- The character that a named entity stands for. -/
def entityOf (name : List Char) : Option Char :=
  [("lt".toList, '<'), ("gt".toList, '>'), ("amp".toList, '&'),
    ("apos".toList, Char.ofNat 39), ("quot".toList, '"')].lookup name

/-- Letters and digits, with a letter first. -/
def isPlainName : List Char → Bool
  | [] => false
  | c :: rest => c.isAlpha && rest.all Char.isAlphanum

namespace Reader

/-- Text that nothing was read of. -/
def freshText : Mode := .text [] '\x00' '\x00'

/-- A reader before a document. -/
def start : Reader := ⟨[], freshText, none⟩

/-- Give text to the innermost open element; outside of all elements it is dropped. -/
def settle : List Frame → List Char → List Frame
  | [], _ => []
  | frame :: others, read => { frame with text := frame.text ++ read } :: others

/-- The text before a piece of markup ends. -/
def takeText (reader : Reader) (read : List Char) : Except Refusal Reader :=
  if read.all inCharacterRange then
    .ok { reader with frames := settle reader.frames read }
  else .error .syntaxError

/-- An element has ended: it is a child of the one around it, or all there is to read. -/
def push (reader : Reader) (element : Element) : Reader :=
  match reader.frames with
  | [] => { reader with mode := freshText, done := some element }
  | frame :: others =>
    { reader with
      frames := { frame with children := frame.children ++ [element] } :: others
      mode := freshText }

/-- The bracket that closes a piece of markup. -/
def closeMarkup (reader : Reader) (read : List Char) : Except Refusal Reader :=
  match read with
  | '/' :: name =>
    if isPlainName name then
      match reader.frames with
      | [] => .error .syntaxError
      | frame :: others =>
        if frame.name = name then
          .ok ({ reader with frames := others }.push (.node name frame.text frame.children))
        else .error .syntaxError
    else .error .otherMarkup
  | name =>
    if isPlainName name then
      .ok { reader with frames := ⟨name, [], []⟩ :: reader.frames, mode := freshText }
    else .error .otherMarkup

/-- One character further. -/
def step (reader : Reader) (c : Char) : Except Refusal Reader :=
  if reader.done.isSome then .ok reader
  else
    match reader.mode with
    | .text read b0 b1 =>
      if b0 = ']' ∧ b1 = ']' ∧ c = '>' then .error .syntaxError
      else if c = '<' then do
        let reader ← reader.takeText read
        return { reader with mode := .markup [] }
      else if c = '&' then .ok { reader with mode := .entity read [] }
      -- the ends of lines are rewritten
      else if c = '\r' then .ok { reader with mode := .text (read ++ ['\n']) b1 c }
      else if b1 = '\r' ∧ c = '\n' then .ok { reader with mode := .text read b1 c }
      else .ok { reader with mode := .text (read ++ [c]) b1 c }
    | .markup read =>
      if c = '>' then reader.closeMarkup read
      else .ok { reader with mode := .markup (read ++ [c]) }
    | .entity before name =>
      if c = ';' then
        match entityOf name with
        | some meant => .ok { reader with mode := .text (before ++ [meant]) '\x00' '\x00' }
        | none => .error (if name.head? = some '#' then .otherMarkup else .syntaxError)
      else .ok { reader with mode := .entity before (name ++ [c]) }

/-- The element of a document; what follows it is not looked at. -/
def read (document : List Char) : Except Refusal Element := do
  let reader ← document.foldlM step start
  match reader.done with
  | some element => return element
  | none => .error .syntaxError

/-- What a document is refused for. -/
def refusal (document : List Char) : Option Refusal :=
  match read document with
  | .ok _ => none
  | .error refusal => some refusal

end Reader

/-! ## What needs no escape -/

/-- A text that stands in a document as it is. -/
structure PlainText (text : List Char) : Prop where
  plain : ∀ c ∈ text, c ≠ '<' ∧ c ≠ '&' ∧ c ≠ '\r' ∧ inCharacterRange c = true
  noEnd : ¬"]]>".toList <:+: text

mutual

/-- An element whose names and texts stand in a document as they are. -/
def Element.Plain : Element → Prop
  | .node name text children =>
    isPlainName name = true ∧ PlainText text ∧ Element.AllPlain children

/-- Elements whose names and texts stand in a document as they are. -/
def Element.AllPlain : List Element → Prop
  | [] => True
  | element :: others => element.Plain ∧ Element.AllPlain others

end

theorem Element.AllPlain.mk {elements : List Element}
    (plain : ∀ element ∈ elements, element.Plain) : Element.AllPlain elements := by
  induction elements with
  | nil => trivial
  | cons element others step =>
    exact ⟨plain element (by simp), step fun other member => plain other (by simp [member])⟩

/-- Visible characters without a bracket or an ampersand stand as they are. -/
theorem PlainText.of_visible {text : List Char}
    (visible : ∀ c ∈ text, 0x20 ≤ c.toNat ∧ c.toNat < 0x7F ∧ c ≠ '<' ∧ c ≠ '&' ∧ c ≠ ']') :
    PlainText text where
  plain c member := by
    obtain ⟨low, high, bracket, ampersand, _⟩ := visible c member
    refine ⟨bracket, ampersand, ?_, ?_⟩
    · rintro rfl
      exact absurd low (by decide)
    · simp only [inCharacterRange, decide_eq_true_eq]
      omega
  noEnd inside := by
    have bracket : ']' ∈ text := inside.subset (by decide)
    exact (visible _ bracket).2.2.2.2 rfl

/-- The same, character by character. -/
theorem PlainText.of_all {text : List Char} (visible : (text.all fun c =>
      decide (0x20 ≤ c.toNat ∧ c.toNat < 0x7F ∧ c ≠ '<' ∧ c ≠ '&' ∧ c ≠ ']')) = true) :
    PlainText text :=
  .of_visible fun c member => of_decide_eq_true (List.all_eq_true.mp visible c member)

/-- The empty text stands as it is. -/
theorem PlainText.nil : PlainText [] := .of_visible (by simp)

/-! ## Reading what was written -/

namespace Reader

/-- A piece of text that needs no escape is taken as it is. -/
theorem foldlM_text {text : List Char}
    (plain : ∀ c ∈ text, c ≠ '<' ∧ c ≠ '&' ∧ c ≠ '\r' ∧ inCharacterRange c = true)
    (frames : List Frame) (read : List Char) {b0 b1 : Char} (noReturn : b1 ≠ '\r')
    (noEnd : ¬"]]>".toList <:+: b0 :: b1 :: text) :
    ∃ c0 c1, text.foldlM step ⟨frames, .text read b0 b1, none⟩
      = .ok ⟨frames, .text (read ++ text) c0 c1, none⟩ := by
  induction text generalizing read b0 b1 with
  | nil =>
    refine ⟨b0, b1, ?_⟩
    rw [List.append_nil]
    rfl
  | cons c rest later =>
    obtain ⟨noBracket, noEntity, noLine, _⟩ := plain c (by simp)
    have here : ¬(b0 = ']' ∧ b1 = ']' ∧ c = '>') := by
      rintro ⟨rfl, rfl, rfl⟩
      exact noEnd ⟨[], rest, rfl⟩
    have first : step ⟨frames, .text read b0 b1, none⟩ c
        = .ok ⟨frames, .text (read ++ [c]) b1 c, none⟩ := by
      simp [step, here, noBracket, noEntity, noLine, noReturn]
    have further : ¬"]]>".toList <:+: b1 :: c :: rest := fun inside =>
      noEnd (inside.trans (List.suffix_cons b0 _).isInfix)
    obtain ⟨c0, c1, others⟩ := later (fun other member => plain other (by simp [member]))
      (read ++ [c]) noLine further
    refine ⟨c0, c1, ?_⟩
    rw [List.foldlM_cons, first]
    show rest.foldlM step ⟨frames, .text (read ++ [c]) b1 c, none⟩ = _
    rw [others, List.append_assoc, List.singleton_append]

/-- Two characters that are not brackets do not begin the end of a section. -/
theorem noEnd_cons {text : List Char} (noEnd : ¬"]]>".toList <:+: text) :
    ¬"]]>".toList <:+: '\x00' :: '\x00' :: text := by
  intro inside
  have dropped : ∀ {text : List Char}, "]]>".toList <:+: '\x00' :: text →
      "]]>".toList <:+: text := by
    intro text inside
    rcases List.infix_cons_iff.mp inside with front | later
    · obtain ⟨rest, same⟩ := front
      simp at same
    · exact later
  exact noEnd (dropped (dropped inside))

/-- The name of a piece of markup is taken up to the bracket. -/
theorem foldlM_markup {name : List Char} (noBracket : '>' ∉ name) (frames : List Frame)
    (read : List Char) :
    name.foldlM step ⟨frames, .markup read, none⟩ = .ok ⟨frames, .markup (read ++ name), none⟩ := by
  induction name generalizing read with
  | nil => simp [pure, Except.pure]
  | cons c rest step =>
    have here : c ≠ '>' := fun same => noBracket (by simp [same])
    have others : '>' ∉ rest := fun member => noBracket (by simp [member])
    have first : Reader.step ⟨frames, .markup read, none⟩ c
        = .ok ⟨frames, .markup (read ++ [c]), none⟩ := by
      simp [Reader.step, here]
    rw [List.foldlM_cons, first]
    show rest.foldlM Reader.step ⟨frames, .markup (read ++ [c]), none⟩ = _
    rw [step others, List.append_assoc, List.singleton_append]

/-- A name of letters and digits has no bracket and no slash. -/
theorem not_mem_of_isPlainName {name : List Char} (plain : isPlainName name = true) {c : Char}
    (other : c.isAlphanum = false) : c ∉ name := by
  intro member
  cases name with
  | nil => simp at member
  | cons first rest =>
    simp only [isPlainName, Bool.and_eq_true, List.all_eq_true] at plain
    rcases List.mem_cons.mp member with same | later
    · subst same
      simp [Char.isAlphanum, plain.1] at other
    · simp [plain.2 c later] at other

/-- The bracket that ends an opening tag. -/
theorem closeMarkup_name {name : List Char} (plain : isPlainName name = true) (reader : Reader) :
    reader.closeMarkup name
      = .ok { reader with frames := ⟨name, [], []⟩ :: reader.frames, mode := freshText } := by
  unfold closeMarkup
  split
  · rename_i rest
    exact absurd List.mem_cons_self (not_mem_of_isPlainName plain (by decide))
  · simp [plain]

/-- The bracket that ends a closing tag. -/
theorem closeMarkup_slash {frame : Frame} (plain : isPlainName frame.name = true)
    (others : List Frame) (mode : Mode) :
    closeMarkup ⟨frame :: others, mode, none⟩ ('/' :: frame.name)
      = .ok (push ⟨others, mode, none⟩ (.node frame.name frame.text frame.children)) := by
  simp [closeMarkup, plain]

/-- Names, with a slash before them or not, are taken up to the bracket. -/
theorem foldlM_tag {tag : List Char} (noBracket : '>' ∉ tag) (frames : List Frame)
    (rest : List Char) :
    (tag ++ '>' :: rest).foldlM step ⟨frames, .markup [], none⟩
      = (closeMarkup ⟨frames, .markup tag, none⟩ tag >>= fun reader =>
        rest.foldlM step reader) := by
  rw [List.foldlM_append, foldlM_markup noBracket]
  show ('>' :: rest).foldlM step ⟨frames, .markup tag, none⟩ = _
  rw [List.foldlM_cons]
  rfl

/-- An opening bracket ends a text. -/
theorem step_bracket {read : List Char} (range : read.all inCharacterRange = true)
    (frames : List Frame) (b0 b1 : Char) :
    step ⟨frames, .text read b0 b1, none⟩ '<'
      = .ok ⟨settle frames read, .markup [], none⟩ := by
  have taken : takeText ⟨frames, .text read b0 b1, none⟩ read
      = .ok ⟨settle frames read, .text read b0 b1, none⟩ := by
    simp only [takeText, range, if_true]
  simp only [step, taken]
  simp

mutual

/-- A written element is read as a child of the element around it. -/
theorem foldlM_write : ∀ {element : Element}, element.Plain → ∀ (frames : List Frame)
    {read : List Char} (b0 b1 : Char), read.all inCharacterRange = true →
    element.write.foldlM step ⟨frames, .text read b0 b1, none⟩
      = .ok (push ⟨settle frames read, freshText, none⟩ element)
  | .node name text children, ⟨plainName, plainText, plainChildren⟩, frames, read, b0, b1,
      range => by
    have bracket : '>' ∉ name := not_mem_of_isPlainName plainName (by decide)
    have slash : '>' ∉ '/' :: name := by simp [bracket]
    have textRange : text.all inCharacterRange = true := by
      rw [List.all_eq_true]
      exact fun c member => (plainText.plain c member).2.2.2
    have opened : Element.write (.node name text children)
        = '<' :: (name ++ '>' :: (text ++ (Element.writeAll children ++
          '<' :: (('/' :: name) ++ ['>'])))) := by
      simp [Element.write]
    obtain ⟨c0, c1, inText⟩ := foldlM_text plainText.plain
      (⟨name, [], []⟩ :: settle frames read) [] (by decide)
      (noEnd_cons plainText.noEnd)
    rw [opened, List.foldlM_cons, step_bracket range]
    show (name ++ '>' :: _).foldlM step ⟨settle frames read, .markup [], none⟩ = _
    rw [foldlM_tag bracket, closeMarkup_name plainName]
    show (text ++ _).foldlM step ⟨⟨name, [], []⟩ :: settle frames read, freshText, none⟩ = _
    rw [List.foldlM_append, freshText, inText]
    show (Element.writeAll children ++ _).foldlM step _ = _
    rw [List.nil_append, foldlM_writeAll plainChildren _ _ _ _ textRange]
    rw [foldlM_tag slash, closeMarkup_slash plainName]
    rfl

/-- Written elements are read as children of the element around them, up to the bracket that
follows them. -/
theorem foldlM_writeAll : ∀ {elements : List Element}, Element.AllPlain elements →
    ∀ {frame : Frame} (others : List Frame) {read : List Char} (b0 b1 : Char) (rest : List Char),
    read.all inCharacterRange = true →
    (Element.writeAll elements ++ '<' :: rest).foldlM step
        ⟨frame :: others, .text read b0 b1, none⟩
      = rest.foldlM step
        ⟨⟨frame.name, frame.text ++ read, frame.children ++ elements⟩ :: others, .markup [],
          none⟩
  | [], _, frame, others, read, b0, b1, rest, range => by
    rw [Element.writeAll, List.nil_append, List.foldlM_cons, step_bracket range,
      List.append_nil]
    rfl
  | element :: elements, ⟨plain, plains⟩, frame, others, read, b0, b1, rest, range => by
    have here := foldlM_write plain (frame :: others) b0 b1 range
    have later := @foldlM_writeAll _ plains
      ⟨frame.name, frame.text ++ read, frame.children ++ [element]⟩ others [] '\x00' '\x00' rest rfl
    rw [Element.writeAll, List.append_assoc, List.foldlM_append, here]
    show (Element.writeAll elements ++ '<' :: rest).foldlM step
      ⟨⟨frame.name, frame.text ++ read, frame.children ++ [element]⟩ :: others, freshText,
        none⟩ = _
    rw [freshText, later, List.append_nil, List.append_assoc, List.singleton_append]

end

end Reader

/-- The document of an element that needs no escape is read back as the element. -/
theorem Reader.read_write {element : Element} (plain : element.Plain) :
    Reader.read element.write = .ok element := by
  have whole := @Reader.foldlM_write _ plain [] [] '\x00' '\x00' rfl
  show (element.write.foldlM Reader.step ⟨[], .text [] '\x00' '\x00', none⟩ >>= _) = _
  rw [whole]
  rfl

end EasyTrade.Text
