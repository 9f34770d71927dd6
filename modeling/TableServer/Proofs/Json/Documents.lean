import TableServer.Json.Reader
import TableServer.Proofs.Json.Tokens

/-! Reading a written document. The reader takes the tokens of a document exactly if it does not
nest too deep, and what is written is then read with its numbers as their texts have them. -/

namespace TableServer

namespace JsonReader

theorem if_if_none {α : Type} {first second both : Prop} [Decidable first] [Decidable second]
    [Decidable both] (found : Option α) (joined : both ↔ first ∧ second) :
    (if first then (if second then found else none) else none) =
      if both then found else none := by
  by_cases holds : first
  · simp [holds, joined]
  · simp [holds, joined]

theorem run_firstItem (frames : List JsonFrame) (item : Json) (rest : List JsonToken) :
    (firstItem frames).run (item.tokens ++ rest) =
      (nextValue (.array [] :: frames)).run (item.tokens ++ rest) := by
  cases item <;> rfl

theorem run_openArray (frames : List JsonFrame) (rest : List JsonToken) :
    (nextValue frames).run (.openArray :: rest) =
      if frames.length < maxDepth then (firstItem frames).run rest else none := by
  simp only [run, step, begin]
  by_cases room : frames.length < maxDepth <;> simp [room]

theorem run_openObject (frames : List JsonFrame) (rest : List JsonToken) :
    (nextValue frames).run (.openObject :: rest) =
      if frames.length < maxDepth then (firstKey frames).run rest else none := by
  simp only [run, step, begin]
  by_cases room : frames.length < maxDepth <;> simp [room]

theorem tokensOfItems_begin (item : Json) (others : List Json) (rest : List JsonToken) :
    ∃ further, Json.tokensOfItems (item :: others) ++ rest = item.tokens ++ further := by
  cases others with
  | nil => exact ⟨.closeArray :: rest, by simp [Json.tokensOfItems]⟩
  | cons => exact ⟨_, List.append_assoc _ _ _⟩

def atKey (frames : List JsonFrame) : List (String × Json) → JsonReader
  | [] => firstKey frames
  | read => nextKey frames read

theorem run_atKey (frames : List JsonFrame) (read : List (String × Json)) (key : String)
    (rest : List JsonToken) :
    (atKey frames read).run (.string key :: .colon :: rest) =
      (nextValue (.object read key :: frames)).run rest := by
  cases read <;> rfl

mutual

theorem run_tokens : ∀ (document : Json) (frames : List JsonFrame) (rest : List JsonToken),
    frames.length ≤ maxDepth →
    (nextValue frames).run (document.tokens ++ rest) =
      if document.depth + frames.length ≤ maxDepth then (give document frames).run rest else none
  | .null, frames, rest, within => by
    simp [Json.tokens, Json.depth, within, run, step, begin]
  | .bool value, frames, rest, within => by
    simp [Json.tokens, Json.depth, within, run, step, begin]
  | .number value, frames, rest, within => by
    simp [Json.tokens, Json.depth, within, run, step, begin]
  | .string text, frames, rest, within => by
    simp [Json.tokens, Json.depth, within, run, step, begin]
  | .array [], frames, rest, _ => by
    have deep : (Json.array []).depth = 1 := rfl
    have closed : (firstItem frames).run (.closeArray :: rest) =
        (give (.array []) frames).run rest := rfl
    change (nextValue frames).run (.openArray :: .closeArray :: rest) = _
    rw [run_openArray, closed, deep]
    exact if_congr (by omega) rfl rfl
  | .array (item :: others), frames, rest, _ => by
    have deep : (Json.array (item :: others)).depth = Json.depthItems (item :: others) + 1 := rfl
    obtain ⟨further, begins⟩ := tokensOfItems_begin item others rest
    change (nextValue frames).run (.openArray :: (Json.tokensOfItems (item :: others) ++ rest)) = _
    rw [run_openArray, begins, run_firstItem, ← begins, deep]
    by_cases room : frames.length < maxDepth
    · rw [if_pos room, run_tokensOfItems (item :: others) [] frames rest (by simp) room]
      exact if_congr (by omega) rfl rfl
    · rw [if_neg room, if_neg (by omega)]
  | .object [], frames, rest, _ => by
    have deep : (Json.object []).depth = 1 := rfl
    have closed : (firstKey frames).run (.closeObject :: rest) =
        (give (.object []) frames).run rest := rfl
    change (nextValue frames).run (.openObject :: .closeObject :: rest) = _
    rw [run_openObject, closed, deep]
    exact if_congr (by omega) rfl rfl
  | .object (member :: others), frames, rest, _ => by
    have deep : (Json.object (member :: others)).depth =
        Json.depthMembers (member :: others) + 1 := rfl
    change (nextValue frames).run
      (.openObject :: (Json.tokensOfMembers (member :: others) ++ rest)) = _
    rw [run_openObject, deep]
    by_cases room : frames.length < maxDepth
    · have read := run_tokensOfMembers (member :: others) [] frames rest (by simp) room
      rw [if_pos room]
      exact read.trans (if_congr (by omega) rfl rfl)
    · rw [if_neg room, if_neg (by omega)]

theorem run_tokensOfItems : ∀ (items read : List Json) (frames : List JsonFrame)
    (rest : List JsonToken), items ≠ [] → frames.length < maxDepth →
    (nextValue (.array read :: frames)).run (Json.tokensOfItems items ++ rest) =
      if Json.depthItems items + frames.length < maxDepth then
        (give (.array (read.reverse ++ items)) frames).run rest
      else none
  | [], _, _, _, someItems, _ => absurd rfl someItems
  | [last], read, frames, rest, _, room => by
    have deep : Json.depthItems [last] = last.depth := Nat.max_zero _
    have closed : (give last (.array read :: frames)).run (.closeArray :: rest) =
        (give (.array (read.reverse ++ [last])) frames).run rest := by
      simp [give, run, step]
    simp only [Json.tokensOfItems, List.append_assoc, List.singleton_append]
    rw [run_tokens last (.array read :: frames) _ room, closed, deep]
    exact if_congr (by simp only [List.length_cons]; omega) rfl rfl
  -- The room for what an array holds is one level less than for the array.
  | item :: second :: others, read, frames, rest, _, room => by
    have deep : Json.depthItems (item :: second :: others) =
        max item.depth (Json.depthItems (second :: others)) := rfl
    have joined : (give item (.array read :: frames)).run
        (.comma :: (Json.tokensOfItems (second :: others) ++ rest)) =
          (nextValue (.array (item :: read) :: frames)).run
            (Json.tokensOfItems (second :: others) ++ rest) := rfl
    rw [Json.tokensOfItems_cons item (by simp), List.append_assoc, List.cons_append,
      run_tokens item (.array read :: frames) _ room, joined,
      run_tokensOfItems (second :: others) (item :: read) frames rest (by simp) room, deep]
    simp only [List.length_cons, List.reverse_cons, List.append_assoc, List.singleton_append]
    exact if_if_none _ (by omega)

theorem run_tokensOfMembers : ∀ (members read : List (String × Json)) (frames : List JsonFrame)
    (rest : List JsonToken), members ≠ [] → frames.length < maxDepth →
    (atKey frames read).run (Json.tokensOfMembers members ++ rest) =
      if Json.depthMembers members + frames.length < maxDepth then
        (give (.object (read.reverse ++ members)) frames).run rest
      else none
  | [], _, _, _, someMembers, _ => absurd rfl someMembers
  | [(key, value)], read, frames, rest, _, room => by
    have deep : Json.depthMembers [(key, value)] = value.depth := Nat.max_zero _
    have closed : (give value (.object read key :: frames)).run (.closeObject :: rest) =
        (give (.object (read.reverse ++ [(key, value)])) frames).run rest := by
      simp [give, run, step]
    simp only [Json.tokensOfMembers, List.cons_append, List.append_assoc, List.nil_append]
    rw [run_atKey, run_tokens value (.object read key :: frames) _ room, closed, deep]
    exact if_congr (by simp only [List.length_cons]; omega) rfl rfl
  | (key, value) :: second :: others, read, frames, rest, _, room => by
    have deep : Json.depthMembers ((key, value) :: second :: others) =
        max value.depth (Json.depthMembers (second :: others)) := rfl
    have joined : (give value (.object read key :: frames)).run
        (.comma :: (Json.tokensOfMembers (second :: others) ++ rest)) =
          (atKey frames ((key, value) :: read)).run
            (Json.tokensOfMembers (second :: others) ++ rest) := rfl
    rw [Json.tokensOfMembers_cons key value (by simp)]
    simp only [List.cons_append, List.append_assoc]
    rw [run_atKey, run_tokens value (.object read key :: frames) _ room, joined,
      run_tokensOfMembers (second :: others) ((key, value) :: read) frames rest (by simp) room,
      deep]
    simp only [List.length_cons, List.reverse_cons, List.append_assoc, List.singleton_append]
    exact if_if_none _ (by omega)

end

theorem step_malformed (reader : JsonReader) : reader.step .malformed = none := by
  cases reader <;> rfl

theorem run_cons {reader : JsonReader} {token : JsonToken} {others rest : List JsonToken}
    {document : Json} (found : reader.run (token :: others) = some (document, rest)) :
    (reader = complete document ∧ rest = token :: others) ∨
      ∃ next, reader.step token = some next ∧ next.run others = some (document, rest) := by
  cases reader
  case complete =>
    cases found
    exact Or.inl ⟨rfl, rfl⟩
  all_goals
    simp only [run] at found
    split at found
    · rename_i next taken
      exact Or.inr ⟨next, taken, found⟩
    · cases found

theorem malformed_mem_rest {reader : JsonReader} {tokens rest : List JsonToken} {document : Json}
    (found : reader.run tokens = some (document, rest)) (broken : .malformed ∈ tokens) :
    .malformed ∈ rest := by
  induction tokens generalizing reader with
  | nil => cases broken
  | cons token others ih =>
    rcases run_cons found with ⟨_, rfl⟩ | ⟨next, taken, further⟩
    · exact broken
    · have later : .malformed ∈ others := by
        rcases List.mem_cons.mp broken with rfl | later
        · rw [step_malformed] at taken
          cases taken
        · exact later
      exact ih further later

end JsonReader

namespace Json

mutual

theorem depth_of_reread : ∀ {document read : Json}, document.reread? = some read →
    read.depth = document.depth
  | .null, _, found => by cases found; rfl
  | .bool _, _, found => by cases found; rfl
  | .string _, _, found => by cases found; rfl
  | .number _, _, found => by
    obtain ⟨value, _, rfl⟩ := Option.map_eq_some_iff.mp found
    rfl
  | .array items, _, found => by
    obtain ⟨others, foundItems, rfl⟩ := Option.map_eq_some_iff.mp found
    simp only [depth, depthItems_of_reread foundItems]
  | .object members, _, found => by
    obtain ⟨others, foundMembers, rfl⟩ := Option.map_eq_some_iff.mp found
    simp only [depth, depthMembers_of_reread foundMembers]

theorem depthItems_of_reread : ∀ {items read : List Json}, rereadItems? items = some read →
    depthItems read = depthItems items
  | [], _, found => by cases found; rfl
  | item :: rest, _, found => by
    simp only [rereadItems?, Option.bind_eq_bind, Option.bind_eq_some_iff, Option.pure_def,
      Option.some.injEq] at found
    obtain ⟨first, foundFirst, others, foundOthers, rfl⟩ := found
    simp only [depthItems, depth_of_reread foundFirst, depthItems_of_reread foundOthers]

theorem depthMembers_of_reread : ∀ {members read : List (String × Json)},
    rereadMembers? members = some read → depthMembers read = depthMembers members
  | [], _, found => by cases found; rfl
  | (key, value) :: rest, _, found => by
    simp only [rereadMembers?, Option.bind_eq_bind, Option.bind_eq_some_iff, Option.pure_def,
      Option.some.injEq] at found
    obtain ⟨first, foundFirst, others, foundOthers, rfl⟩ := found
    simp only [depthMembers, depth_of_reread foundFirst, depthMembers_of_reread foundOthers]

end

/-- A written document is read with its numbers as their texts have them, unless it nests too
deep. -/
theorem readWritten_write (document : Json) :
    readWritten document.write =
      if document.depth ≤ JsonReader.maxDepth then document.reread? else none := by
  have scanned := scans_write document JsonNumber.ends_nil
  rw [readWritten, readFirst]
  cases found : document.reread? with
  | none =>
    rw [found] at scanned
    obtain ⟨before, broken⟩ := scanned
    rw [List.append_nil] at broken
    rw [ite_self, broken]
    split
    · rename_i read complete
      have left := JsonReader.malformed_mem_rest complete (by simp)
      cases left
    · rfl
  | some read =>
    rw [found] at scanned
    have tokensOf : JsonToken.ofText document.write = read.tokens ++ [] := by
      simpa [JsonToken.Scans] using scanned
    rw [tokensOf, JsonReader.run_tokens read [] [] (Nat.zero_le _), depth_of_reread found]
    by_cases shallow : document.depth ≤ JsonReader.maxDepth
    · rw [if_pos shallow, if_pos (by simpa using shallow)]
      rfl
    · rw [if_neg shallow, if_neg (by simpa using shallow)]

end Json

end TableServer
