import Mathlib
import StepFlow.Proofs.Flow.Decoded
import StepFlow.Proofs.Flow.Encoded
import StepFlow.Proofs.Json.Flattened

/-!
A flow survives writing and reading. Reading leaves only bounded shapes behind, a node with bounded
shapes is read back from its text, and the reader of a list goes through the texts of its items. So
whatever spelling a flow was read from, its written form is read as the same flow.
-/
namespace StepFlow.Flow
open Json

section
variable {nodes : List Node} {node : Node}

theorem encodeNodes_map (nodes : List Node) : Node.encodeNodes nodes = nodes.map Node.encode := by
  induction nodes with
  | nil => rfl
  | cons node nodes ih => rw [Node.encodeNodes, List.map_cons, ih]

theorem lookup_wireName (kind : Kind) :
    Kind.tagging.kinds.lookup kind.wireName = some kind := by
  cases kind <;> rfl

theorem node_scanned {room : Nat} (bounded : node.Bounded) (fits : node.encode.depth ≤ room) :
    ReadsBack (scanNode room) Node.encode node := by
  intro rest follows
  obtain ⟨kind, ms, encoded, others, decoded⟩ := node_restored node bounded
  have exact := node_exact node
  rw [encoded] at fits exact ⊢
  simp only [Json.depth, Json.depthMembers] at fits
  obtain ⟨room, rfl⟩ : ∃ less, room = less + 1 := ⟨room - 1, by omega⟩
  rw [scanNode, scan_next (tagged_scanned (lookup_wireName kind) others exact.2 (by omega) rest)]
  simp only [decoded]
  rfl

theorem flow_scanned {room : Nat} (bounded : NodesBounded nodes)
    (fits : (Json.arr (Node.encodeNodes nodes)).depth ≤ room) (rest : List Char) :
    decoder.scan room ((Json.arr (Node.encodeNodes nodes)).print ++ rest) = .ok (nodes, rest) := by
  simp only [Json.depth] at fits
  obtain ⟨room, rfl⟩ : ∃ less, room = less + 1 := ⟨room - 1, by omega⟩
  rw [encodeNodes_map] at fits ⊢
  have inner := depthItems_le.mp (Nat.le_of_succ_le_succ fits)
  have array : Scan.array (room + 1) scanNode ((Json.arr (nodes.map Node.encode)).print ++ rest) =
      .ok (nodes, rest) :=
    array_scanned (fun node _ => node_exact node)
      (fun node member => node_scanned (nodesBounded_iff.mp bounded node member)
        (inner _ (List.mem_map_of_mem member))) rest
  have peek : Scan.peek ((Json.arr (nodes.map Node.encode)).print ++ rest) =
      .ok (some '[', (Json.arr (nodes.map Node.encode)).print ++ rest) := scan_peek rfl
  simp only [decoder]
  rw [scan_next peek]
  exact array

/-- A bounded flow that nests no deeper than a reader goes is read back as it was written. -/
theorem read_write (bounded : NodesBounded nodes)
    (fits : (Json.arr (Node.encodeNodes nodes)).depth ≤ maxDepth) :
    read (write nodes) = .ok nodes := by
  have scanned := flow_scanned bounded fits []
  rw [List.append_nil] at scanned
  exact decodeText_compact scanned

/-- Whatever text a flow has been read from, its own text is read as the same flow, which is written
as that text again. -/
theorem flow_survives {text : String} (parsed : read text = .ok nodes)
    (fits : (Json.arr (Node.encodeNodes nodes)).depth ≤ maxDepth) :
    read (write nodes) = .ok nodes ∧ (read (write nodes)).map write = .ok (write nodes) := by
  have again := read_write (read_bounded parsed) fits
  exact ⟨again, by rw [again]; rfl⟩

def spelledText : String :=
  "[[\"else\",\"\",[[\"code\",\"a\",\"\",\"A\",1,[[\"k\",\"input\"]]," ++
    "\x7b\"child\":\x7b\"type\":\"Date\"\x7d,\"type\":\"List\"\x7d]]]]"

def spelledFlow : List Node :=
  [.otherwise "" [.code ⟨"a", "", "A", .ignore, [⟨"k", .literal, .unknown, "", none⟩],
    some ⟨"", .list (.basic .unknown)⟩⟩]]

set_option maxRecDepth 8000 in
theorem spelled_read : read spelledText = .ok spelledFlow := by
  cbv

theorem spelled_survives : read (write spelledFlow) = .ok spelledFlow ∧
    (read (write spelledFlow)).map write = .ok (write spelledFlow) :=
  flow_survives spelled_read (by decide)

end

end StepFlow.Flow
