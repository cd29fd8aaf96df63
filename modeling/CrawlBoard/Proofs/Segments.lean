import CrawlBoard.Proofs.Percent

namespace CrawlBoard.Percent

def segments (text : String) : List String := (Search.splitOn '/' text.toList).map String.ofList

/-- The segments of a text that has been encoded segment by segment. -/
def decodedSegments? (text : String) : Option (List String) :=
  (segments text).mapM fun segment => decodeText? segment.toList

theorem segments_ne_nil (text : String) : segments text ≠ [] := by
  simp [segments, Search.splitOn_ne_nil]

theorem length_segments (text : String) :
    (segments text).length = text.toList.count '/' + 1 := by
  rw [segments, List.length_map, Search.length_splitOn]

theorem intercalate_segments (text : String) : "/".intercalate (segments text) = text := by
  have chars : (segments text).map String.toList = Search.splitOn '/' text.toList := by
    rw [segments, List.map_map]
    exact (List.map_congr_left fun _ _ => String.toList_ofList).trans (List.map_id _)
  rw [← String.toList_inj, String.toList_intercalate, chars]
  exact Search.intercalate_splitOn '/' text.toList

theorem segments_intercalate {parts : List String} (apart : ∀ part ∈ parts, '/' ∉ part.toList)
    (given : parts ≠ []) : segments ("/".intercalate parts) = parts := by
  rw [segments, Search.splitOn_joined rfl apart given, List.map_map]
  exact (List.map_congr_left fun _ _ => String.ofList_toList).trans (List.map_id _)

theorem segments_append (front back : String) :
    segments (front ++ "/" ++ back) = segments front ++ segments back := by
  have chars : (front ++ "/" ++ back).toList = front.toList ++ '/' :: back.toList := by
    simp
  rw [segments, chars, Search.splitOn_append, List.map_append, segments, segments]

theorem segments_of_not_mem {text : String} (single : '/' ∉ text.toList) :
    segments text = [text] := by
  have alone : "/".intercalate [text] = text := by
    rw [← String.toList_inj, String.toList_intercalate]
    simp
  have cut := @segments_intercalate [text] (by simpa using single) (by simp)
  rwa [alone] at cut

theorem encodePath_eq (path : String) :
    encodePath path = "/".intercalate ((segments path).map encode) := by
  rw [encodePath, segments, List.map_map]
  rfl

theorem segments_encodePath (path : String) :
    segments (encodePath path) = (segments path).map encode := by
  rw [encodePath_eq]
  apply segments_intercalate
  · intro part present
    obtain ⟨segment, -, rfl⟩ := List.mem_map.mp present
    exact not_mem_encode (by decide) segment
  · simpa using segments_ne_nil path

theorem segments_inj {first second : String} : segments first = segments second ↔ first = second := by
  refine ⟨fun same => ?_, congrArg segments⟩
  rw [← intercalate_segments first, same, intercalate_segments]

theorem encodePath_append (front back : String) :
    encodePath (front ++ "/" ++ back) = encodePath front ++ "/" ++ encodePath back := by
  apply segments_inj.mp
  rw [segments_encodePath, segments_append, segments_append, segments_encodePath,
    segments_encodePath, List.map_append]

theorem decodedSegments?_encodePath (path : String) :
    decodedSegments? (encodePath path) = some (segments path) := by
  rw [decodedSegments?, segments_encodePath]
  exact Search.mapM_map_of_inverse _ fun segment _ => decodeText?_encode segment

theorem count_slash_encodePath (path : String) :
    (encodePath path).toList.count '/' = path.toList.count '/' := by
  have segmentsKept : (segments (encodePath path)).length = (segments path).length := by
    rw [segments_encodePath, List.length_map]
  rw [length_segments, length_segments] at segmentsKept
  exact Nat.succ.inj segmentsKept

theorem not_mem_encodePath {mark : Char} (special : isEncoded mark = false) (other : mark ≠ '/')
    (path : String) : mark ∉ (encodePath path).toList := by
  intro member
  rw [encodePath_eq, String.toList_intercalate] at member
  rcases Search.mem_intercalate member with slash | ⟨piece, present, inside⟩
  · exact other (List.mem_singleton.mp slash)
  · rw [List.map_map] at present
    obtain ⟨segment, -, rfl⟩ := List.mem_map.mp present
    exact not_mem_encode special segment inside

end CrawlBoard.Percent
