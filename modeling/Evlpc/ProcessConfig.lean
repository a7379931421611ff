import Evlpc.CommandLine
import Evlpc.Library.LinkedList
import Evlpc.XmlReaders
import Mathlib.Data.List.Forall2

/-!
# Reading the process groups

`read_pgroups` walks over sibling nodes of the XML document and builds a linked list of
groups; for each of them `read_processes` walks over the children and builds a linked
list of processes. A node is allocated before its attributes are read, and left alone
if one is missing or the group id is out of range.

What the configuration says is the list of the groups with their processes. The two
functions refine it: the heap holds this list.
-/

namespace Evlpc

open Library CStrings NodeHeap

/-- libxml2's attribute lookup, and the strings that `read_attribute_string` leaves for
the text of an attribute and `read_element_string` for an element among some nodes, in
destinations of a given size. -/
structure Readers where
  xmlGetProp : XmlNode → String → Option (List UInt8)
  attributeString : List UInt8 → (n : Nat) → 0 < n → CharArray n
  elementString : List XmlNode → String → (n : Nat) → 0 < n → CharArray n

/-- `read_attribute_string`: no string stands for the result -1. -/
def Readers.readAttributeString (readers : Readers) (node : XmlNode) (attributeName : String)
    (n : Nat) (positive : 0 < n) : Option (CharArray n) :=
  (readers.xmlGetProp node attributeName).map fun value =>
    readers.attributeString value n positive

/-- The fields of `ProcessInfoNode_t` that are read. -/
structure ProcessInfo where
  strings : ProcessStrings
  primaryArgs : CharArray 128

/-- A process after `memset`. -/
def ProcessStrings.zeroed : ProcessStrings where
  name := .cleared 31
  instanceId := .cleared 7
  defaultPort := .cleared 7
  binary := .cleared 63
  dir := .cleared 127
  args := .cleared 127
  overrideArgs := .cleared 127

/-- The same for what is read about it. -/
def ProcessInfo.zeroed : ProcessInfo := ⟨.zeroed, .cleared 127⟩

/-- The fields of `PgroupInfoNode_t`, with the pointer to the first process. -/
structure PgroupInfo where
  groupId : Int32
  commonArgs : CharArray 256
  processInfoNode : Option Nat

/-- A group after `memset`. -/
def PgroupInfo.zeroed : PgroupInfo := ⟨0, .cleared 255, none⟩

/-- The elements that are read from the children of a process. -/
def readProcessElements (readers : Readers) (children : List XmlNode) (info : ProcessInfo) :
    ProcessInfo :=
  { info with strings := { info.strings with
      defaultPort := readers.elementString children "defaultPort" 8 (Nat.succ_pos 7)
      binary := readers.elementString children "binary" 64 (Nat.succ_pos 63)
      dir := readers.elementString children "dir" 128 (Nat.succ_pos 127)
      args := readers.elementString children "args" 128 (Nat.succ_pos 127)
      overrideArgs := readers.elementString children "override_args" 128 (Nat.succ_pos 127) } }

/-- The loop of `read_processes` over the nodes that remain. -/
def readProcessesLoop (readers : Readers) (heap : NodeHeap ProcessInfo) (head cur : Option Nat) :
    List XmlNode → NodeHeap ProcessInfo × Option Nat
  | [] => (heap, head)
  | node :: later =>
    if node.type ≠ xmlElementNode then readProcessesLoop readers heap head cur later
    else if node.name ≠ "process" then readProcessesLoop readers heap head cur later
    else
      let (heap, processInfoNode) := heap.malloc ProcessInfo.zeroed
      match readers.readAttributeString node "name" 32 (Nat.succ_pos 31) with
      | none => readProcessesLoop readers heap head cur later
      | some name =>
        let heap := heap.setValue processInfoNode fun info =>
          { info with strings := { info.strings with name := name } }
        match readers.readAttributeString node "instance" 8 (Nat.succ_pos 7) with
        | none => readProcessesLoop readers heap head cur later
        | some instanceId =>
          let heap := heap.setValue processInfoNode fun info =>
            { info with strings := { info.strings with instanceId := instanceId } }
          let heap := heap.setValue processInfoNode (readProcessElements readers node.children)
          let heap := heap.setNext processInfoNode none
          let heap := heap.setValue processInfoNode fun info =>
            { info with primaryArgs := primaryArgsArray info.strings }
          readProcessesLoop readers (linkBehind heap cur processInfoNode)
            (firstOr head processInfoNode) (some processInfoNode) later

/-- `read_processes`. -/
def readProcesses (readers : Readers) (heap : NodeHeap ProcessInfo) (nodes : List XmlNode) :
    NodeHeap ProcessInfo × Option Nat :=
  readProcessesLoop readers heap none none nodes

/-- The heap of the service monitor. -/
structure ConfigHeap where
  processes : NodeHeap ProcessInfo
  pgroups : NodeHeap PgroupInfo

/-- The loop of `read_pgroups` over the nodes that remain. -/
def readPgroupsLoop (readers : Readers) (heap : ConfigHeap) (head cur : Option Nat) :
    List XmlNode → ConfigHeap × Option Nat
  | [] => (heap, head)
  | node :: later =>
    if node.type ≠ xmlElementNode then readPgroupsLoop readers heap head cur later
    else if node.name ≠ "process_group" then readPgroupsLoop readers heap head cur later
    else
      let (pgroups, pgroupInfoNode) := heap.pgroups.malloc PgroupInfo.zeroed
      match readers.readAttributeString node "group_id" 32 (Nat.succ_pos 31) with
      | none => readPgroupsLoop readers { heap with pgroups := pgroups } head cur later
      | some groupIdStr =>
        let groupId := atoi groupIdStr.string
        if groupId < 1 ∨ 16 < groupId then
          readPgroupsLoop readers { heap with pgroups := pgroups } head cur later
        else
          let pgroups := pgroups.setValue pgroupInfoNode fun info =>
            { info with groupId := groupId }
          let pgroups := pgroups.setValue pgroupInfoNode fun info =>
            { info with
              commonArgs :=
                readers.elementString node.children "common_args" 256 (Nat.succ_pos 255) }
          let (processes, processInfoNode) := readProcesses readers heap.processes node.children
          let pgroups := pgroups.setValue pgroupInfoNode fun info =>
            { info with processInfoNode := processInfoNode }
          let pgroups := pgroups.setNext pgroupInfoNode none
          readPgroupsLoop readers ⟨processes, linkBehind pgroups cur pgroupInfoNode⟩
            (firstOr head pgroupInfoNode) (some pgroupInfoNode) later

/-- `read_pgroups`. -/
def readPgroups (readers : Readers) (heap : ConfigHeap) (nodes : List XmlNode) :
    ConfigHeap × Option Nat :=
  readPgroupsLoop readers heap none none nodes

section Configuration

/-- A group as the configuration gives it. -/
structure ConfiguredGroup where
  groupId : Int32
  commonArgs : CharArray 256
  processes : List ProcessInfo

variable (readers : Readers)

/-- A node is an element of the given name. -/
def IsElement (name : String) (node : XmlNode) : Prop :=
  node.type = xmlElementNode ∧ node.name = name

instance (name : String) (node : XmlNode) : Decidable (IsElement name node) :=
  inferInstanceAs (Decidable (_ ∧ _))

/-- What is read about a process with the given name and instance. -/
def processOf (node : XmlNode) (name : CharArray 32) (instanceId : CharArray 8) : ProcessInfo :=
  let strings : ProcessStrings :=
    { name := name
      instanceId := instanceId
      defaultPort := readers.elementString node.children "defaultPort" 8 (Nat.succ_pos 7)
      binary := readers.elementString node.children "binary" 64 (Nat.succ_pos 63)
      dir := readers.elementString node.children "dir" 128 (Nat.succ_pos 127)
      args := readers.elementString node.children "args" 128 (Nat.succ_pos 127)
      overrideArgs := readers.elementString node.children "override_args" 128 (Nat.succ_pos 127) }
  ⟨strings, primaryArgsArray strings⟩

/-- A process element with a name and an instance configures a process. -/
def configuredProcess (node : XmlNode) : Option ProcessInfo :=
  if IsElement "process" node then
    match readers.xmlGetProp node "name", readers.xmlGetProp node "instance" with
    | some name, some instanceId =>
      some (processOf readers node (readers.attributeString name 32 (Nat.succ_pos 31))
        (readers.attributeString instanceId 8 (Nat.succ_pos 7)))
    | _, _ => none
  else none

/-- A group element with a group id from 1 to 16 configures a group, with the processes
of its children. -/
def configuredGroup (node : XmlNode) : Option ConfiguredGroup :=
  if IsElement "process_group" node then
    match readers.xmlGetProp node "group_id" with
    | none => none
    | some value =>
      let groupId := atoi (readers.attributeString value 32 (Nat.succ_pos 31)).string
      if 1 ≤ groupId ∧ groupId ≤ 16 then
        some {
          groupId := groupId
          commonArgs := readers.elementString node.children "common_args" 256 (Nat.succ_pos 255)
          processes := node.children.filterMap (configuredProcess readers) }
      else none
  else none

/-- A node of the list of groups holds a group and the list of its processes. -/
structure HoldsGroup (processes : NodeHeap ProcessInfo) (info : PgroupInfo)
    (group : ConfiguredGroup) : Prop where
  groupId : info.groupId = group.groupId
  commonArgs : info.commonArgs = group.commonArgs
  processes : Chain processes info.processInfoNode group.processes

/-- The list at the pointer is that of the groups. -/
def HoldsGroups (heap : ConfigHeap) (head : Option Nat) (groups : List ConfiguredGroup) : Prop :=
  ∃ infos, Chain heap.pgroups head infos ∧ List.Forall₂ (HoldsGroup heap.processes) infos groups

/-- What the body of the loop of `read_processes` does with a node: nothing, or it
leaves a new node aside, or it links one for the process that is configured. -/
theorem readProcessesLoop_cons (heap : NodeHeap ProcessInfo) (head cur : Option Nat)
    (node : XmlNode) (later : List XmlNode) :
    (configuredProcess readers node = none ∧
      readProcessesLoop readers heap head cur (node :: later) =
        readProcessesLoop readers heap head cur later) ∨
    (configuredProcess readers node = none ∧ ∃ info,
      readProcessesLoop readers heap head cur (node :: later) =
        readProcessesLoop readers (heap.push info) head cur later) ∨
    ∃ info, configuredProcess readers node = some info ∧
      readProcessesLoop readers heap head cur (node :: later) =
        readProcessesLoop readers (linkBehind (heap.push info) cur heap.cells.length)
          (firstOr head heap.cells.length) (some heap.cells.length) later := by
  rw [readProcessesLoop, configuredProcess]
  by_cases isElement : node.type = xmlElementNode
  · rw [if_neg (not_not.mpr isElement)]
    by_cases named : node.name = "process"
    · rw [if_neg (not_not.mpr named), if_pos ⟨isElement, named⟩, malloc_push]
      dsimp only
      rw [Readers.readAttributeString, Readers.readAttributeString]
      cases readers.xmlGetProp node "name" with
      | none => exact Or.inr (Or.inl ⟨rfl, _, rfl⟩)
      | some name =>
        dsimp only [Option.map_some]
        rw [setValue_push]
        cases readers.xmlGetProp node "instance" with
        | none => exact Or.inr (Or.inl ⟨rfl, _, rfl⟩)
        | some instanceId =>
          dsimp only [Option.map_some]
          rw [setValue_push, setValue_push, setNext_push, setValue_push]
          exact Or.inr (Or.inr ⟨_, rfl, rfl⟩)
    · rw [if_pos named, if_neg fun both => named both.2]
      exact Or.inl ⟨rfl, rfl⟩
  · rw [if_pos isElement, if_neg fun both => isElement both.1]
    exact Or.inl ⟨rfl, rfl⟩

/-- From a list under construction on, the loop appends the processes that the
remaining nodes configure, and keeps the nodes that were there before the list. -/
theorem readProcessesLoop_builds (old heap : NodeHeap ProcessInfo) (head cur : Option Nat)
    (infos : List ProcessInfo) (nodes : List XmlNode)
    (building : Building heap old.cells.length head cur infos) (grown : Extends old heap) :
    Extends old (readProcessesLoop readers heap head cur nodes).1 ∧
      Chain (readProcessesLoop readers heap head cur nodes).1
        (readProcessesLoop readers heap head cur nodes).2
        (infos ++ nodes.filterMap (configuredProcess readers)) := by
  induction nodes generalizing heap head cur infos with
  | nil =>
    rw [List.filterMap_nil, List.append_nil]
    exact ⟨grown, building.chain⟩
  | cons node later inductionHypothesis =>
    rw [List.filterMap_cons]
    rcases readProcessesLoop_cons readers heap head cur node later with
      ⟨absent, skips⟩ | ⟨absent, aside, leaves⟩ | ⟨info, present, links⟩
    · rw [skips, absent]
      exact inductionHypothesis heap head cur infos building grown
    · rw [leaves, absent]
      exact inductionHypothesis (heap.push aside) head cur infos
        (building.kept (extends_push heap aside)) (grown.trans (extends_push heap aside))
    · obtain ⟨linked, kept⟩ := building.link grown info
      have later := inductionHypothesis _ _ _ (infos ++ [info]) linked kept
      rw [links, present]
      rwa [List.append_assoc, List.singleton_append] at later

/-- `read_processes` returns the list of the processes that are configured. -/
theorem readProcesses_list (heap : NodeHeap ProcessInfo) (nodes : List XmlNode) :
    Extends heap (readProcesses readers heap nodes).1 ∧
      Chain (readProcesses readers heap nodes).1 (readProcesses readers heap nodes).2
        (nodes.filterMap (configuredProcess readers)) :=
  readProcessesLoop_builds readers heap heap none none [] nodes .empty (Extends.refl heap)

/-- A group stays held while processes of other groups are added. -/
theorem HoldsGroup.kept {old new : NodeHeap ProcessInfo} {info : PgroupInfo}
    {group : ConfiguredGroup} (holds : HoldsGroup old info group) (grown : Extends old new) :
    HoldsGroup new info group :=
  { holds with processes := holds.processes.kept grown }

/-- What the body of the loop of `read_pgroups` does with a node. -/
theorem readPgroupsLoop_cons (heap : ConfigHeap) (head cur : Option Nat) (node : XmlNode)
    (later : List XmlNode) :
    (configuredGroup readers node = none ∧
      readPgroupsLoop readers heap head cur (node :: later) =
        readPgroupsLoop readers heap head cur later) ∨
    (configuredGroup readers node = none ∧ ∃ info,
      readPgroupsLoop readers heap head cur (node :: later) =
        readPgroupsLoop readers { heap with pgroups := heap.pgroups.push info } head cur later) ∨
    ∃ info group processes, configuredGroup readers node = some group ∧
      Extends heap.processes processes ∧ HoldsGroup processes info group ∧
      readPgroupsLoop readers heap head cur (node :: later) =
        readPgroupsLoop readers
          ⟨processes, linkBehind (heap.pgroups.push info) cur heap.pgroups.cells.length⟩
          (firstOr head heap.pgroups.cells.length) (some heap.pgroups.cells.length) later := by
  rw [readPgroupsLoop, configuredGroup]
  by_cases isElement : node.type = xmlElementNode
  · rw [if_neg (not_not.mpr isElement)]
    by_cases named : node.name = "process_group"
    · rw [if_neg (not_not.mpr named), if_pos ⟨isElement, named⟩, malloc_push]
      dsimp only
      rw [Readers.readAttributeString]
      cases readers.xmlGetProp node "group_id" with
      | none => exact Or.inr (Or.inl ⟨rfl, _, rfl⟩)
      | some value =>
        dsimp only [Option.map_some]
        generalize atoi (readers.attributeString value 32 (Nat.succ_pos 31)).string = groupId
        by_cases outside : groupId < 1 ∨ 16 < groupId
        · have refused : ¬ (1 ≤ groupId ∧ groupId ≤ 16) := by
            rintro ⟨low, high⟩
            rcases outside with below | above
            · exact Int32.not_le.mpr below low
            · exact Int32.not_le.mpr above high
          rw [if_pos outside, if_neg refused]
          exact Or.inr (Or.inl ⟨rfl, _, rfl⟩)
        · obtain ⟨notBelow, notAbove⟩ := not_or.mp outside
          have admitted : 1 ≤ groupId ∧ groupId ≤ 16 :=
            ⟨Int32.not_lt.mp notBelow, Int32.not_lt.mp notAbove⟩
          obtain ⟨grown, chain⟩ := readProcesses_list readers heap.processes node.children
          rw [if_neg outside, if_pos admitted, setValue_push, setValue_push]
          dsimp only
          rw [setValue_push, setNext_push]
          exact Or.inr (Or.inr ⟨_, _, _, rfl, grown, ⟨rfl, rfl, chain⟩, rfl⟩)
    · rw [if_pos named, if_neg fun both => named both.2]
      exact Or.inl ⟨rfl, rfl⟩
  · rw [if_pos isElement, if_neg fun both => isElement both.1]
    exact Or.inl ⟨rfl, rfl⟩

/-- From a list under construction on, the loop appends the groups that the remaining
nodes configure. -/
theorem readPgroupsLoop_builds (old : NodeHeap PgroupInfo) (heap : ConfigHeap)
    (head cur : Option Nat) (infos : List PgroupInfo) (groups : List ConfiguredGroup)
    (nodes : List XmlNode)
    (building : Building heap.pgroups old.cells.length head cur infos)
    (grown : Extends old heap.pgroups)
    (holds : List.Forall₂ (HoldsGroup heap.processes) infos groups) :
    HoldsGroups (readPgroupsLoop readers heap head cur nodes).1
      (readPgroupsLoop readers heap head cur nodes).2
      (groups ++ nodes.filterMap (configuredGroup readers)) := by
  induction nodes generalizing heap head cur infos groups with
  | nil =>
    rw [List.filterMap_nil, List.append_nil]
    exact ⟨infos, building.chain, holds⟩
  | cons node later inductionHypothesis =>
    rw [List.filterMap_cons]
    rcases readPgroupsLoop_cons readers heap head cur node later with
      ⟨absent, skips⟩ | ⟨absent, aside, leaves⟩ |
        ⟨info, group, processes, present, added, held, links⟩
    · rw [skips, absent]
      exact inductionHypothesis heap head cur infos groups building grown holds
    · rw [leaves, absent]
      exact inductionHypothesis _ head cur infos groups
        (building.kept (extends_push heap.pgroups aside))
        (grown.trans (extends_push heap.pgroups aside)) holds
    · obtain ⟨linked, kept⟩ := building.link grown info
      have still := holds.imp fun _ _ holdsGroup => holdsGroup.kept added
      have more := List.rel_append still (List.Forall₂.cons held .nil)
      have later := inductionHypothesis ⟨processes, _⟩ _ _ (infos ++ [info]) (groups ++ [group])
        linked kept more
      rw [links, present]
      rwa [List.append_assoc, List.singleton_append] at later

/-- Whatever nodes there are, `read_pgroups` returns the list of the groups that they
configure, in their order, each with the list of its processes. -/
theorem configured_groups_read (heap : ConfigHeap) (nodes : List XmlNode) :
    HoldsGroups (readPgroups readers heap nodes).1 (readPgroups readers heap nodes).2
      (nodes.filterMap (configuredGroup readers)) :=
  readPgroupsLoop_builds readers heap.pgroups heap none none [] [] nodes .empty
    (Extends.refl heap.pgroups) .nil

end Configuration

section Trimming

/-- A trimmed text, up to a NUL and cut to leave room for one. -/
def trimmedString (value : List UInt8) (n : Nat) : List UInt8 :=
  ((trimmedText value).takeWhile (· ≠ 0)).take (n - 1)

/-- There is no NUL in a trimmed text. -/
theorem trimmedString_noNul (value : List UInt8) (n : Nat) : 0 ∉ trimmedString value n := by
  intro member
  have kept := List.mem_takeWhile_imp (List.mem_of_mem_take member)
  exact of_decide_eq_true kept rfl

/-- A trimmed text leaves room for one. -/
theorem trimmedString_shorter (value : List UInt8) (n : Nat) (positive : 0 < n) :
    (trimmedString value n).length < n := by
  rw [trimmedString, List.length_take]
  omega

/-- The trimmed text in an array. -/
def trimmedArray (value : List UInt8) (n : Nat) (positive : 0 < n) : CharArray n :=
  .ofString n (trimmedString value n) (trimmedString_noNul value n)
    (trimmedString_shorter value n positive)

/-- Readers that leave the trimmed text as far as it fits. -/
def trimmingReaders (libxml : Libxml) : Readers where
  xmlGetProp := libxml.xmlGetProp
  attributeString value n positive := trimmedArray value n positive
  elementString nodes elementName n positive :=
    match firstElement nodes elementName with
    | none => trimmedArray [] n positive
    | some element => trimmedArray (libxml.xmlNodeGetContent element) n positive

/-- A text that leaves room for a NUL in what is copied for a destination. -/
structure LeavesRoom (chars : List UInt8) (n : Nat) : Prop where
  noNul : 0 ∉ chars
  short : chars.length < n - 1

/-- With room, nothing is cut off. -/
theorem trimmedArray_string (chars : List UInt8) (n : Nat) (positive : 0 < n)
    (room : LeavesRoom chars n) : (trimmedArray chars n positive).string = trimmedText chars := by
  have visible : ∀ char ∈ trimmedText chars, (decide (char ≠ 0)) = true := by
    intro char member
    have inText := (List.dropWhile_suffix isspace).mem
      ((List.rdropWhile_prefix isspace _).mem member)
    exact decide_eq_true fun nul => room.noNul (nul ▸ inText)
  have trimmedShort := trimmedText_length chars
  have short := room.short
  rw [trimmedArray, CharArray.ofString_string, trimmedString,
    List.takeWhile_eq_self_iff.mpr visible, List.take_of_length_le (by omega)]

/-- `read_attribute_string` leaves a string in every destination of its size, whatever
its local array held. -/
def AttributeLeft (libxml : Libxml) (node : XmlNode) (attributeName : String) {n : Nat}
    (array : CharArray n) : Prop :=
  ∀ attribValue str, attribValue.length = attribValueSize → str.length = n →
    ∃ written, readAttributeString libxml attribValue node attributeName str n =
        some (0, written) ∧ text written = some array.string

/-- `read_element_string` leaves a string, whether it finds the element or not. -/
def ElementLeft (libxml : Libxml) (nodes : List XmlNode) (elementName : String) {n : Nat}
    (array : CharArray n) : Prop :=
  ∀ content str, content.length = contentSize → str.length = n →
    ∃ rc written, readElementString libxml content nodes elementName str n =
        some (rc, written) ∧ text written = some array.string

/-- Both readers first put a NUL in front of the destination. -/
theorem destination_cleared (str : List UInt8) (positive : 0 < str.length) :
    ∃ cleared, put str 0 [0] = some cleared ∧ cleared.length = str.length ∧
      text cleared = some [] := by
  have within : 0 + [(0 : UInt8)].length ≤ str.length := positive
  have done := put_within str 0 [0] within
  refine ⟨_, done, put_length str 0 [0] _ done, rfl⟩

/-- The text of an attribute is left as it would be by a reader that trims it. -/
theorem attribute_left (libxml : Libxml) (node : XmlNode) (attributeName : String)
    (chars : List UInt8) (n : Nat) (positive : 0 < n) (within : n ≤ attribValueSize)
    (attributeText : libxml.xmlGetProp node attributeName = some chars)
    (room : LeavesRoom chars n) :
    AttributeLeft libxml node attributeName (trimmedArray chars n positive) := by
  intro attribValue str attribLength length
  have attribSize : attribValueSize = 128 := rfl
  have short := room.short
  obtain ⟨cleared, done, clearedLength, -⟩ := destination_cleared str (length ▸ positive)
  obtain ⟨written, copied, present⟩ := copyTrimmed_reads attribValue (attribValueSize - 1) chars
    cleared n room.noNul (by omega) (by omega) (clearedLength.trans length) short
  refine ⟨written, ?_, present.trans (by rw [trimmedArray_string chars n positive room])⟩
  simp only [readAttributeString, Option.bind_eq_bind, done, Option.bind_some, attributeText,
    copied]

/-- So is the text of the first element of a name, and nothing if there is none. -/
theorem element_left (libxml : Libxml) (nodes : List XmlNode) (elementName : String) (n : Nat)
    (positive : 0 < n) (within : n ≤ contentSize)
    (room : ∀ element, firstElement nodes elementName = some element →
      LeavesRoom (libxml.xmlNodeGetContent element) n) :
    ElementLeft libxml nodes elementName
      ((trimmingReaders libxml).elementString nodes elementName n positive) := by
  intro content str contentLength length
  obtain ⟨cleared, done, clearedLength, empty⟩ := destination_cleared str (length ▸ positive)
  cases found : firstElement nodes elementName with
  | none =>
    refine ⟨-1, cleared, ?_, ?_⟩
    · simp only [readElementString, Option.bind_eq_bind, done, Option.bind_some]
      exact readElementStringLoop_missing libxml nodes elementName n content cleared found
    · simp only [trimmingReaders, found]
      have nothing : trimmedText [] = [] := rfl
      rw [empty, trimmedArray, CharArray.ofString_string, trimmedString, nothing,
        List.takeWhile_nil, List.take_nil]
  | some element =>
    have fits := room element found
    have short := fits.short
    obtain ⟨written, copied, present⟩ := copyTrimmed_reads content (n - 1)
      (libxml.xmlNodeGetContent element) cleared n fits.noNul (by omega) short
      (clearedLength.trans length) short
    refine ⟨0, written, ?_, ?_⟩
    · simp only [readElementString, Option.bind_eq_bind, done, Option.bind_some]
      rw [readElementStringLoop_found libxml nodes elementName element n content _ found, copied]
    · simp only [trimmingReaders, found]
      rw [present, trimmedArray_string _ n positive fits]

/-- The readers leave what those of the source do, for all texts that leave room. -/
structure Readers.FromSource (readers : Readers) (libxml : Libxml) : Prop where
  xmlGetProp : readers.xmlGetProp = libxml.xmlGetProp
  attributeString : ∀ node attributeName chars n (positive : 0 < n), n ≤ attribValueSize →
    libxml.xmlGetProp node attributeName = some chars → LeavesRoom chars n →
    AttributeLeft libxml node attributeName (readers.attributeString chars n positive)
  elementString : ∀ nodes elementName n (positive : 0 < n), n ≤ contentSize →
    (∀ element, firstElement nodes elementName = some element →
      LeavesRoom (libxml.xmlNodeGetContent element) n) →
    ElementLeft libxml nodes elementName (readers.elementString nodes elementName n positive)

/-- Readers that trim are such readers. -/
theorem trimmingReaders_fromSource (libxml : Libxml) :
    (trimmingReaders libxml).FromSource libxml where
  xmlGetProp := rfl
  attributeString := attribute_left libxml
  elementString := element_left libxml

/-- An attribute of a node leaves room in its destination. -/
def AttributeRoom (libxml : Libxml) (node : XmlNode) (attributeName : String) (n : Nat) : Prop :=
  ∀ chars, libxml.xmlGetProp node attributeName = some chars → LeavesRoom chars n

/-- The first element of a name leaves room in its destination. -/
def ElementRoom (libxml : Libxml) (nodes : List XmlNode) (elementName : String) (n : Nat) : Prop :=
  ∀ element, firstElement nodes elementName = some element →
    LeavesRoom (libxml.xmlNodeGetContent element) n

/-- All that is read of a process leaves room. -/
structure ProcessRoom (libxml : Libxml) (node : XmlNode) : Prop where
  name : AttributeRoom libxml node "name" 32
  instanceId : AttributeRoom libxml node "instance" 8
  defaultPort : ElementRoom libxml node.children "defaultPort" 8
  binary : ElementRoom libxml node.children "binary" 64
  dir : ElementRoom libxml node.children "dir" 128
  args : ElementRoom libxml node.children "args" 128
  overrideArgs : ElementRoom libxml node.children "override_args" 128

/-- The strings of a process are those that the source's readers leave for its node. -/
structure ProcessLeft (libxml : Libxml) (node : XmlNode) (strings : ProcessStrings) : Prop where
  name : AttributeLeft libxml node "name" strings.name
  instanceId : AttributeLeft libxml node "instance" strings.instanceId
  defaultPort : ElementLeft libxml node.children "defaultPort" strings.defaultPort
  binary : ElementLeft libxml node.children "binary" strings.binary
  dir : ElementLeft libxml node.children "dir" strings.dir
  args : ElementLeft libxml node.children "args" strings.args
  overrideArgs : ElementLeft libxml node.children "override_args" strings.overrideArgs

/-- With room in all destinations, what a process element configures is what the source's
readers leave for it. -/
theorem configuredProcess_left (libxml : Libxml) (readers : Readers)
    (source : readers.FromSource libxml) (node : XmlNode) (process : ProcessInfo)
    (room : ProcessRoom libxml node)
    (configured : configuredProcess readers node = some process) :
    ProcessLeft libxml node process.strings := by
  rw [configuredProcess, source.xmlGetProp] at configured
  split at configured
  · split at configured
    · next name instanceId named instanced =>
      obtain rfl := Option.some.inj configured
      exact {
        name := source.attributeString node "name" name 32 (Nat.succ_pos 31) (by decide) named
          (room.name name named)
        instanceId := source.attributeString node "instance" instanceId 8 (Nat.succ_pos 7)
          (by decide) instanced (room.instanceId instanceId instanced)
        defaultPort := source.elementString node.children "defaultPort" 8 (Nat.succ_pos 7)
          (by decide) room.defaultPort
        binary := source.elementString node.children "binary" 64 (Nat.succ_pos 63) (by decide)
          room.binary
        dir := source.elementString node.children "dir" 128 (Nat.succ_pos 127) (by decide)
          room.dir
        args := source.elementString node.children "args" 128 (Nat.succ_pos 127) (by decide)
          room.args
        overrideArgs := source.elementString node.children "override_args" 128
          (Nat.succ_pos 127) (by decide) room.overrideArgs }
    · cases configured
  · cases configured

/-- The processes of a group are those of its children. -/
theorem group_processes (readers : Readers) (node : XmlNode) (group : ConfiguredGroup)
    (configured : configuredGroup readers node = some group) :
    group.processes = node.children.filterMap (configuredProcess readers) := by
  rw [configuredGroup] at configured
  split at configured
  · split at configured
    · cases configured
    · dsimp only at configured
      split at configured
      · obtain rfl := Option.some.inj configured
        rfl
      · cases configured
  · cases configured

/-- Every process of a configured group has the strings that the source's readers leave
for one of the elements of the group. -/
theorem configured_processes_left (libxml : Libxml) (readers : Readers)
    (source : readers.FromSource libxml) (document : List XmlNode)
    (room : ∀ pgroup ∈ document, ∀ node ∈ pgroup.children, ProcessRoom libxml node) :
    ∀ group ∈ document.filterMap (configuredGroup readers), ∀ process ∈ group.processes,
      ∃ pgroup ∈ document, ∃ node ∈ pgroup.children, ProcessLeft libxml node process.strings := by
  intro group member process isProcess
  obtain ⟨pgroup, isPgroup, configured⟩ := List.mem_filterMap.mp member
  rw [group_processes readers pgroup group configured] at isProcess
  obtain ⟨node, isNode, same⟩ := List.mem_filterMap.mp isProcess
  exact ⟨pgroup, isPgroup, node, isNode, configuredProcess_left libxml readers source node process
    (room pgroup isPgroup node isNode) same⟩

end Trimming

end Evlpc
