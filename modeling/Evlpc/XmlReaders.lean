import Evlpc.Library.CStrings
import Mathlib.Data.List.DropRight

/-!
# Reading texts from the XML configuration

`read_attribute_string` and `read_element_string` copy a text into a local array, trim
it there, and copy what is left to the destination. The first one copies as much as
its array holds. The second one copies only as much as the destination holds, and so
cuts the text before it is trimmed; and as neither writes a NUL of its own, a text that
fills the copy is trimmed together with what the array held behind it.
-/

namespace Evlpc

open Library CStrings

/-- `xmlNode`, with the siblings of a node as a list. The texts are those of its
attributes and its content. -/
inductive XmlNode where
  | node (type : Int32) (name : String) (attributes : List (String × List UInt8))
      (content : List UInt8) (children : List XmlNode) : XmlNode

/-- `type`. -/
def XmlNode.type : XmlNode → Int32
  | .node type _ _ _ _ => type

/-- `name`. -/
def XmlNode.name : XmlNode → String
  | .node _ name _ _ _ => name

/-- `properties`, with their texts. -/
def XmlNode.attributes : XmlNode → List (String × List UInt8)
  | .node _ _ attributes _ _ => attributes

/-- The text that a node contains. -/
def XmlNode.content : XmlNode → List UInt8
  | .node _ _ _ content _ => content

/-- `children`, as a list. -/
def XmlNode.children : XmlNode → List XmlNode
  | .node _ _ _ _ children => children

/-- `XML_ELEMENT_NODE`. -/
def xmlElementNode : Int32 := 1

/-- The functions of libxml2 that give the text of an attribute, if there is one, and
of a node. -/
structure Libxml where
  xmlGetProp : XmlNode → String → Option (List UInt8)
  xmlNodeGetContent : XmlNode → List UInt8

/-- The loop of `trimwhitespace` that trims leading space: how far `str` moves. -/
def skipLeading : List UInt8 → Option Nat
  | [] => none
  | char :: rest => if isspace char then (skipLeading rest).map (· + 1) else some 0

/-- The loop of `trimwhitespace` that trims trailing space: where `end` stops, as an
index of the string at `str`. -/
def skipTrailing (chars : List UInt8) : Nat → Nat
  | 0 => 0
  | last + 1 => if isspace (chars.getD (last + 1) 0) then skipTrailing chars last else last + 1

/-- `trimwhitespace`: where the result starts, and the array. -/
def trimwhitespace (array : List UInt8) : Option (Nat × List UInt8) := do
  let str ← skipLeading array
  let chars ← text (array.drop str)
  if chars.length = 0 then some (str, array)
  else
    let written ← put array (str + skipTrailing chars (chars.length - 1) + 1) [0]
    some (str, written)

/-- `sizeof attrib_value`, of `read_attribute_string`. -/
def attribValueSize : Nat := 128

/-- `sizeof content`, of `read_element_string`. -/
def contentSize : Nat := 256

/-- What both readers do with a text: it is copied to a local array up to a limit,
trimmed, and copied to the destination. -/
def copyTrimmed (localArray : List UInt8) (limit : Nat) (value str : List UInt8) (n : Nat) :
    Option (Int32 × List UInt8) := do
  let copied ← strncpy localArray 0 (value ++ [0]) limit
  let trimmed ← trimwhitespace copied
  let str ← strncpy str 0 (trimmed.2.drop trimmed.1) (n - 1)
  some (0, str)

/-- `read_attribute_string`: the result and the destination. -/
def readAttributeString (libxml : Libxml) (attribValue : List UInt8) (node : XmlNode)
    (attributeName : String) (str : List UInt8) (n : Nat) : Option (Int32 × List UInt8) := do
  let str ← put str 0 [0]
  match libxml.xmlGetProp node attributeName with
  | none => some (-1, str)
  | some value => copyTrimmed attribValue (attribValueSize - 1) value str n

/-- The loop of `read_element_string`. -/
def readElementStringLoop (libxml : Libxml) (content : List UInt8) (elementName : String)
    (str : List UInt8) (n : Nat) : List XmlNode → Option (Int32 × List UInt8)
  | [] => some (-1, str)
  | node :: later =>
    if node.type ≠ xmlElementNode then
      readElementStringLoop libxml content elementName str n later
    else if node.name ≠ elementName then
      readElementStringLoop libxml content elementName str n later
    else copyTrimmed content (n - 1) (libxml.xmlNodeGetContent node) str n

/-- `read_element_string`: the result and the destination. -/
def readElementString (libxml : Libxml) (content : List UInt8) (nodes : List XmlNode)
    (elementName : String) (str : List UInt8) (n : Nat) : Option (Int32 × List UInt8) := do
  let str ← put str 0 [0]
  readElementStringLoop libxml content elementName str n nodes

/-- The sizes of the destinations in `read_processes` and `read_pgroups`. -/
def destinationSizes : List Nat := [8, 32, 64, 128, 256]

/-- A text without the white space around it. -/
def trimmedText (chars : List UInt8) : List UInt8 := (chars.dropWhile isspace).rdropWhile isspace

/-- The first element of a name among some siblings. -/
def firstElement (nodes : List XmlNode) (elementName : String) : Option XmlNode :=
  nodes.find? fun node => node.type = xmlElementNode ∧ node.name = elementName

/-- Both readers leave the trimmed text, whatever their local arrays and the
destination hold. -/
structure ReadsBack (libxml : Libxml) (nodes : List XmlNode) (elementName : String)
    (node : XmlNode) (attributeName : String) (chars : List UInt8) (n : Nat) : Prop where
  element : ∀ content str, content.length = contentSize → str.length = n →
    ∃ written, readElementString libxml content nodes elementName str n = some (0, written) ∧
      text written = some (trimmedText chars)
  attrib : ∀ attribValue str, attribValue.length = attribValueSize → str.length = n →
    ∃ written, readAttributeString libxml attribValue node attributeName str n =
      some (0, written) ∧ text written = some (trimmedText chars)

section Trimming

/-- The leading space of a terminated text is skipped. -/
theorem skipLeading_text (array chars : List UInt8) (holds : text array = some chars) :
    ∃ str, skipLeading array = some str ∧
      text (array.drop str) = some (chars.dropWhile isspace) := by
  induction array generalizing chars with
  | nil => cases holds
  | cons char array inductionHypothesis =>
    rcases text_cons char array chars holds with ⟨rfl, rfl⟩ | ⟨nul, later, found, rfl⟩
    · exact ⟨0, rfl, rfl⟩
    · by_cases blank : isspace char = true
      · obtain ⟨str, skipped, rest⟩ := inductionHypothesis later found
        refine ⟨str + 1, ?_, ?_⟩
        · rw [skipLeading, if_pos blank, skipped]
          rfl
        · rw [List.drop_succ_cons, rest, List.dropWhile_cons_of_pos blank]
      · refine ⟨0, ?_, ?_⟩
        · rw [skipLeading, if_neg blank]
        · rw [List.drop_zero, holds, List.dropWhile_cons_of_neg blank]

/-- The trailing space of a text that starts with none is skipped. Induct over the
index; the text is peeled from its end. -/
theorem skipTrailing_take (chars : List UInt8) (first : UInt8) (rest : List UInt8)
    (starts : chars = first :: rest) (visible : ¬ isspace first = true) (last : Nat)
    (inside : last < chars.length) :
    (chars.take (last + 1)).rdropWhile isspace = chars.take (skipTrailing chars last + 1) := by
  induction last with
  | zero =>
    rw [skipTrailing, starts, List.take_succ_cons, List.take_zero]
    exact (List.rdropWhile_singleton _ first).trans (if_neg visible)
  | succ last inductionHypothesis =>
    have ending : chars.take (last + 1 + 1) = chars.take (last + 1) ++ [chars[last + 1]] :=
      (List.take_append_getElem inside).symm
    have read : chars.getD (last + 1) 0 = chars[last + 1] := by
      rw [List.getD_eq_getElem?_getD, List.getElem?_eq_getElem inside, Option.getD_some]
    rw [skipTrailing, read]
    by_cases blank : isspace chars[last + 1] = true
    · rw [if_pos blank, ending, List.rdropWhile_concat_pos _ _ _ blank]
      exact inductionHypothesis (by omega)
    · rw [if_neg blank, ending, List.rdropWhile_concat_neg _ _ _ blank]

/-- The end moves to the front. -/
theorem skipTrailing_le (chars : List UInt8) (last : Nat) : skipTrailing chars last ≤ last := by
  induction last with
  | zero => exact Nat.le_refl 0
  | succ last inductionHypothesis =>
    rw [skipTrailing]
    split
    · exact Nat.le_succ_of_le inductionHypothesis
    · exact Nat.le_refl _

/-- Trimming a terminated text leaves the text without the space around it. -/
theorem trimwhitespace_text (array chars : List UInt8) (holds : text array = some chars) :
    ∃ str written, trimwhitespace array = some (str, written) ∧
      text (written.drop str) = some (trimmedText chars) := by
  obtain ⟨str, skipped, visible⟩ := skipLeading_text array chars holds
  simp only [trimwhitespace, Option.bind_eq_bind, skipped, Option.bind_some, visible]
  cases remaining : chars.dropWhile isspace with
  | nil =>
    refine ⟨str, array, if_pos rfl, ?_⟩
    rw [visible, trimmedText, remaining, List.rdropWhile_nil]
  | cons first rest =>
    rw [remaining] at visible
    have length : (first :: rest).length = rest.length + 1 := List.length_cons
    have stop := skipTrailing_le (first :: rest) ((first :: rest).length - 1)
    have notBlank : ¬ isspace first = true := by
      have head := List.head?_dropWhile_not isspace chars
      rw [remaining] at head
      simpa using head
    have peeled := skipTrailing_take (first :: rest) first rest rfl notBlank
      ((first :: rest).length - 1) (by omega)
    have whole : (first :: rest).take ((first :: rest).length - 1 + 1) = first :: rest :=
      List.take_of_length_le (by omega)
    rw [whole] at peeled
    obtain ⟨written, done, cut⟩ := put_nul array str
      (skipTrailing (first :: rest) ((first :: rest).length - 1) + 1) _ visible (by omega)
    refine ⟨str, written, ?_, ?_⟩
    · rw [if_neg (by omega), Nat.add_assoc, done]
      rfl
    · rw [trimmedText, remaining, peeled]
      exact cut

/-- Trimming never ends in an array without a NUL. -/
theorem trimwhitespace_unterminated (array : List UInt8) (noNul : 0 ∉ array) :
    trimwhitespace array = none := by
  cases skipped : skipLeading array with
  | none => simp only [trimwhitespace, skipped, Option.bind_eq_bind, Option.bind_none]
  | some str =>
    have unterminated := text_unterminated (array.drop str)
      fun member => noNul (List.mem_of_mem_drop member)
    simp only [trimwhitespace, skipped, Option.bind_eq_bind, Option.bind_some, unterminated,
      Option.bind_none]

/-- Trimming adds no characters. -/
theorem trimmedText_length (chars : List UInt8) : (trimmedText chars).length ≤ chars.length :=
  Nat.le_trans (List.rdropWhile_prefix isspace _).length_le
    (List.dropWhile_suffix isspace).length_le

/-- A text is read back if it fits both the copy and the destination with a NUL. -/
theorem copyTrimmed_reads (localArray : List UInt8) (limit : Nat) (value str : List UInt8) (n : Nat)
    (noNul : 0 ∉ value) (within : limit ≤ localArray.length) (shorter : value.length < limit)
    (length : str.length = n) (fits : value.length < n - 1) :
    ∃ written, copyTrimmed localArray limit value str n = some (0, written) ∧
      text written = some (trimmedText value) := by
  obtain ⟨copied, done, present, -⟩ := strncpy_shorter localArray (value ++ [0]) value limit
    (text_terminated value [] noNul) within shorter
  obtain ⟨start, trimmed, trims, trimmedPresent⟩ := trimwhitespace_text copied value present
  have trimmedShort := trimmedText_length value
  obtain ⟨written, again, result, -⟩ := strncpy_shorter str (trimmed.drop start)
    (trimmedText value) (n - 1) trimmedPresent (by omega) (by omega)
  refine ⟨written, ?_, result⟩
  simp only [copyTrimmed, Option.bind_eq_bind, done, Option.bind_some, trims, again]

/-- A text that fills the copy is trimmed together with what stands behind it, which
need not end within the array. -/
theorem copyTrimmed_overreads (limit size : Nat) (value str : List UInt8) (n : Nat)
    (noNul : 0 ∉ value) (within : limit ≤ size) (whole : limit ≤ value.length) :
    copyTrimmed (List.replicate size 120) limit value str n = none := by
  have copied := strncpy_text (List.replicate size 120) 0 (value ++ [0]) value limit
    (text_terminated value [] noNul) (by rw [List.length_replicate]; omega)
  have noPadding : padded value limit = value.take limit := by
    rw [padded, Nat.sub_eq_zero_of_le whole, List.replicate_zero, List.append_nil]
  rw [List.take_zero, List.nil_append, noPadding] at copied
  have unterminated : trimwhitespace (value.take limit ++
      (List.replicate size (120 : UInt8)).drop (0 + limit)) = none := by
    apply trimwhitespace_unterminated
    intro member
    rcases List.mem_append.mp member with inValue | inArray
    · exact noNul (List.mem_of_mem_take inValue)
    · exact absurd (List.eq_of_mem_replicate (List.mem_of_mem_drop inArray)) (by decide)
  simp only [copyTrimmed, Option.bind_eq_bind, copied, Option.bind_some, unterminated,
    Option.bind_none]

end Trimming

section Readers

variable (libxml : Libxml) (nodes : List XmlNode) (elementName : String) (element : XmlNode)
  (node : XmlNode) (attributeName : String) (chars : List UInt8) (n : Nat)

/-- The loop of `read_element_string` stops at the first element of the name. -/
theorem readElementStringLoop_found (content str : List UInt8)
    (found : firstElement nodes elementName = some element) :
    readElementStringLoop libxml content elementName str n nodes =
      copyTrimmed content (n - 1) (libxml.xmlNodeGetContent element) str n := by
  induction nodes with
  | nil => cases found
  | cons other later inductionHypothesis =>
    rw [firstElement, List.find?_cons] at found
    rw [readElementStringLoop]
    by_cases isElement : other.type = xmlElementNode
    · by_cases named : other.name = elementName
      · rw [decide_eq_true ⟨isElement, named⟩] at found
        obtain rfl := Option.some.inj found
        rw [if_neg (not_not.mpr isElement), if_neg (not_not.mpr named)]
      · rw [decide_eq_false fun both => named both.2] at found
        rw [if_neg (not_not.mpr isElement), if_pos named]
        exact inductionHypothesis found
    · rw [decide_eq_false fun both => isElement both.1] at found
      rw [if_pos isElement]
      exact inductionHypothesis found

/-- Without such an element, the loop of `read_element_string` writes nothing. -/
theorem readElementStringLoop_missing (content str : List UInt8)
    (missing : firstElement nodes elementName = none) :
    readElementStringLoop libxml content elementName str n nodes = some (-1, str) := by
  induction nodes with
  | nil => rfl
  | cons other later inductionHypothesis =>
    rw [firstElement, List.find?_cons] at missing
    rw [readElementStringLoop]
    by_cases isElement : other.type = xmlElementNode
    · by_cases named : other.name = elementName
      · rw [decide_eq_true ⟨isElement, named⟩] at missing
        cases missing
      · rw [decide_eq_false fun both => named both.2] at missing
        rw [if_neg (not_not.mpr isElement), if_pos named]
        exact inductionHypothesis missing
    · rw [decide_eq_false fun both => isElement both.1] at missing
      rw [if_pos isElement]
      exact inductionHypothesis missing

/-- Both readers clear the destination, and then copy the text. -/
theorem readers_copy (element_found : firstElement nodes elementName = some element)
    (elementText : libxml.xmlNodeGetContent element = chars)
    (attributeText : libxml.xmlGetProp node attributeName = some chars) (str : List UInt8)
    (length : str.length = n) (positive : 0 < n) :
    ∃ cleared, cleared.length = n ∧
      (∀ content, readElementString libxml content nodes elementName str n =
        copyTrimmed content (n - 1) chars cleared n) ∧
      ∀ attribValue, readAttributeString libxml attribValue node attributeName str n =
        copyTrimmed attribValue (attribValueSize - 1) chars cleared n := by
  have within : 0 + [(0 : UInt8)].length ≤ str.length := by
    rw [List.length_singleton]
    omega
  have done := put_within str 0 [0] within
  refine ⟨_, (put_length str 0 [0] _ done).trans length, ?_, ?_⟩
  · intro content
    simp only [readElementString, Option.bind_eq_bind, done, Option.bind_some]
    rw [readElementStringLoop_found libxml nodes elementName element n content _ element_found,
      elementText]
  · intro attribValue
    simp only [readAttributeString, Option.bind_eq_bind, done, Option.bind_some, attributeText]

/-- Both readers leave the trimmed text in a destination if and only if the text as it
is leaves room for a NUL both in what is copied for the destination and in what
`read_attribute_string` copies. -/
theorem reads_back_iff (used : n ∈ destinationSizes) (noNul : 0 ∉ chars)
    (found : firstElement nodes elementName = some element)
    (elementText : libxml.xmlNodeGetContent element = chars)
    (attributeText : libxml.xmlGetProp node attributeName = some chars) :
    ReadsBack libxml nodes elementName node attributeName chars n ↔
      chars.length ≤ n - 2 ∧ chars.length ≤ attribValueSize - 2 := by
  have sizes : 8 ≤ n ∧ n ≤ contentSize := by
    have all : ∀ size ∈ destinationSizes, 8 ≤ size ∧ size ≤ contentSize := by decide
    exact all n used
  have attribSize : attribValueSize = 128 := rfl
  have copies := readers_copy libxml nodes elementName element node attributeName chars n found
    elementText attributeText
  constructor
  · intro readsBack
    obtain ⟨cleared, -, reads, readsAttribute⟩ := copies (List.replicate n 0)
      List.length_replicate (by omega)
    constructor
    · by_contra tooLong
      obtain ⟨written, read, -⟩ := readsBack.element (List.replicate contentSize 120)
        (List.replicate n 0) List.length_replicate List.length_replicate
      rw [reads, copyTrimmed_overreads (n - 1) contentSize chars cleared n noNul (by omega)
        (by omega)] at read
      cases read
    · by_contra tooLong
      obtain ⟨written, read, -⟩ := readsBack.attrib (List.replicate attribValueSize 120)
        (List.replicate n 0) List.length_replicate List.length_replicate
      rw [readsAttribute, copyTrimmed_overreads (attribValueSize - 1) attribValueSize chars cleared
        n noNul (by omega) (by omega)] at read
      cases read
  · rintro ⟨short, shortAttribute⟩
    constructor
    · intro content str contentLength length
      obtain ⟨cleared, clearedLength, reads, -⟩ := copies str length (by omega)
      rw [reads]
      exact copyTrimmed_reads content (n - 1) chars cleared n noNul (by omega) (by omega)
        clearedLength (by omega)
    · intro attribValue str attribLength length
      obtain ⟨cleared, clearedLength, -, readsAttribute⟩ := copies str length (by omega)
      rw [readsAttribute]
      exact copyTrimmed_reads attribValue (attribValueSize - 1) chars cleared n noNul (by omega)
        (by omega) clearedLength (by omega)

end Readers

/-- libxml2 on elements that contain nothing but their text. -/
def flatLibxml : Libxml where
  xmlGetProp node name := (node.attributes.find? fun property => property.1 = name).map Prod.snd
  xmlNodeGetContent := XmlNode.content

/-- An element, and one of its attributes, with a text. -/
def portElement (chars : List UInt8) : XmlNode :=
  .node xmlElementNode "defaultPort" [("instance", chars)] chars []

/-- `" 7000"`. -/
def blankPort : List UInt8 := [32, 55, 48, 48, 48]

/-- `7000000`, whose seven digits fit the array with their NUL. -/
def widePort : List UInt8 := [55, 48, 48, 48, 48, 48, 48]

/-- A port with a blank in front is read back, and one of seven digits is not. -/
theorem reads_back_blank :
    ReadsBack flatLibxml [portElement blankPort] "defaultPort" (portElement blankPort) "instance"
      blankPort 8 ∧
    ¬ ReadsBack flatLibxml [portElement widePort] "defaultPort" (portElement widePort) "instance"
      widePort 8 := by
  constructor
  · exact (reads_back_iff flatLibxml [portElement blankPort] "defaultPort" (portElement blankPort)
      (portElement blankPort) "instance" blankPort 8 (by decide) (by decide) (by rfl) rfl
      (by rfl)).mpr (by decide)
  · intro readsBack
    have short := ((reads_back_iff flatLibxml [portElement widePort] "defaultPort"
      (portElement widePort) (portElement widePort) "instance" widePort 8 (by decide) (by decide)
      (by rfl) rfl (by rfl)).mp readsBack).1
    exact absurd short (by decide)

/-- `7000` on an indented line of its own. -/
def indentedPort : List UInt8 := [10, 32, 32, 32, 32, 55, 48, 48, 48, 10]

/-- Even in cleared arrays, the port is read as 70. -/
theorem indented_port_cut :
    (trimmedText indentedPort).length ≤ 8 - 1 ∧
    ¬ ReadsBack flatLibxml [portElement indentedPort] "defaultPort" (portElement indentedPort)
      "instance" indentedPort 8 := by
  have trims : trimmedText indentedPort = [55, 48, 48, 48] := by decide
  refine ⟨by rw [trims]; decide, ?_⟩
  intro readsBack
  obtain ⟨written, read, port⟩ := readsBack.element (List.replicate contentSize 0)
    (List.replicate 8 0) List.length_replicate List.length_replicate
  have cut : readElementString flatLibxml (List.replicate contentSize 0)
      [portElement indentedPort] "defaultPort" (List.replicate 8 0) 8 =
        some (0, [55, 48, 0, 0, 0, 0, 0, 0]) := by
    decide +kernel
  obtain rfl := (Prod.mk.inj (Option.some.inj (cut.symm.trans read))).2
  rw [trims] at port
  exact absurd port (by decide)

end Evlpc
