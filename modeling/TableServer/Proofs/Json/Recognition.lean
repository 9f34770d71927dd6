import Mathlib.Data.List.Chain
import TableServer.Proofs.Json.Documents

/-! The grammar that the reader decides: a text is read as a document exactly if it spells the
tokens of the document, white space aside, and the document does not nest too deep. -/

namespace TableServer

namespace JsonToken

/-- White space may stand before a token and after the last. -/
inductive Spells : List JsonToken → List Char → Prop where
  | done : Spells [] []
  | space {c : Char} {tokens : List JsonToken} {text : List Char} (blank : isSpace c = true)
      (further : Spells tokens text) : Spells tokens (c :: text)
  | token {token : JsonToken} {lexeme text : List Char} {tokens : List JsonToken}
      (first : Spelling token lexeme) (further : Spells tokens text) :
      Spells (token :: tokens) (lexeme ++ text)

theorem ofText_of_space {c : Char} (blank : isSpace c = true) (rest : List Char) :
    ofText (c :: rest) = ofText rest := by
  simp only [ofText, List.length_cons, scan, blank, if_true]

theorem spells_ofText (text : List Char) (whole : .malformed ∉ ofText text) :
    Spells (ofText text) text := by
  induction size : text.length using Nat.strongRecOn generalizing text with
  | ind size ih =>
    subst size
    cases text with
    | nil => exact .done
    | cons c rest =>
      by_cases blank : isSpace c = true
      · rw [ofText_of_space blank] at whole ⊢
        exact .space blank (ih rest.length (Nat.lt_succ_self _) rest whole rfl)
      · rw [Bool.not_eq_true] at blank
        cases found : first? (c :: rest) with
        | none =>
          rw [ofText_of_no_first blank found] at whole
          exact absurd List.mem_cons_self whole
        | some read =>
          obtain ⟨token, after⟩ := read
          have shorter := first?_length found
          obtain ⟨lexeme, split, spelling⟩ := first?_eq_some found
          rw [ofText_of_first? blank found] at whole ⊢
          rw [split]
          apply Spells.token spelling
          exact ih after.length shorter after (fun broken => whole (List.mem_cons_of_mem _ broken))
            rfl

def isNumber : JsonToken → Bool
  | number _ => true
  | _ => false

def Separated (tokens : List JsonToken) : Prop :=
  tokens.IsChain fun first second => first.isNumber = true → second.isNumber = false

theorem Spelling.stops {token : JsonToken} {lexeme : List Char} (spelling : Spelling token lexeme)
    (noNumber : token.isNumber = false) (rest : List Char) : JsonNumber.Ends (lexeme ++ rest) := by
  cases spelling with
  | number => cases noNumber
  | _ => exact JsonNumber.ends_cons _ (by decide)

theorem Spells.stops {tokens : List JsonToken} {text : List Char} (spells : Spells tokens text)
    (noNumber : ∀ token ∈ tokens.head?, token.isNumber = false) : JsonNumber.Ends text := by
  cases spells with
  | done => exact JsonNumber.ends_nil
  | space blank further =>
    apply JsonNumber.ends_cons
    simp only [isSpace, Bool.or_eq_true, beq_iff_eq] at blank
    rcases blank with ((rfl | rfl) | rfl) | rfl <;> decide
  | token first further => exact first.stops (noNumber _ rfl) _

theorem ofText_of_spells {tokens : List JsonToken} {text : List Char} (spells : Spells tokens text)
    (separated : Separated tokens) : ofText text = tokens := by
  induction spells with
  | done => rfl
  | space blank further ih =>
    rw [ofText_of_space blank]
    exact ih separated
  | @token token lexeme text tokens first further ih =>
    rw [Separated, List.isChain_cons] at separated
    have ends : EndsBefore token text := by
      rintro value rfl
      exact further.stops fun next isNext => separated.1 next isNext rfl
    have scanned := scans_of_spelling first ends
    rw [Scans] at scanned
    rw [scanned, ih separated.2]
    rfl

end JsonToken

namespace Json

def itemTokens (item : Json) : List JsonToken :=
  item.tokens ++ [.comma]

def memberTokens (member : String × Json) : List JsonToken :=
  .string member.1 :: .colon :: member.2.tokens

theorem tokensOfItems_last (items : List Json) (last : Json) :
    tokensOfItems (items ++ [last]) = items.flatMap itemTokens ++ last.tokens ++ [.closeArray] := by
  induction items with
  | nil => rfl
  | cons item rest ih =>
    rw [List.cons_append, tokensOfItems_cons item (by simp), ih]
    simp [itemTokens]

theorem tokensOfMembers_last (members : List (String × Json)) (last : String × Json) :
    tokensOfMembers (members ++ [last]) =
      members.flatMap (fun member => memberTokens member ++ [.comma]) ++ memberTokens last ++
        [.closeObject] := by
  induction members with
  | nil => rfl
  | cons member rest ih =>
    rw [List.cons_append, tokensOfMembers_cons member.1 member.2 (by simp), ih]
    simp [memberTokens]

end Json

namespace JsonFrame

def tokens : JsonFrame → List JsonToken
  | array items => .openArray :: items.reverse.flatMap Json.itemTokens
  | object members key =>
    .openObject :: members.reverse.flatMap (fun member => Json.memberTokens member ++ [.comma]) ++
      [.string key, .colon]

end JsonFrame

namespace JsonReader

def outside (frames : List JsonFrame) : List JsonToken :=
  frames.reverse.flatMap JsonFrame.tokens

theorem outside_cons (frame : JsonFrame) (frames : List JsonFrame) :
    outside (frame :: frames) = outside frames ++ frame.tokens := by
  simp [outside]

def taken : JsonReader → List JsonToken
  | nextValue frames => outside frames
  | firstItem frames => outside frames ++ [.openArray]
  | firstKey frames => outside frames ++ [.openObject]
  | afterItem frames [] => outside frames
  | afterItem frames (last :: items) => outside (.array items :: frames) ++ last.tokens
  | afterMember frames [] => outside frames
  | afterMember frames ((key, value) :: members) =>
    outside (.object members key :: frames) ++ value.tokens
  | nextKey frames members =>
    outside frames ++ .openObject ::
      members.reverse.flatMap fun member => Json.memberTokens member ++ [.comma]
  | afterKey frames members key =>
    outside frames ++ .openObject ::
      members.reverse.flatMap (fun member => Json.memberTokens member ++ [.comma]) ++
        [.string key]
  | complete document => document.tokens

def Begun : JsonReader → Prop
  | afterItem _ items => items ≠ []
  | afterMember _ members => members ≠ []
  | _ => True

theorem give_taken (value : Json) (frames : List JsonFrame) :
    (give value frames).Begun ∧ (give value frames).taken = outside frames ++ value.tokens := by
  rcases frames with - | ⟨items | ⟨members, key⟩, frames⟩
  · exact ⟨trivial, rfl⟩
  · exact ⟨List.cons_ne_nil _ _, rfl⟩
  · exact ⟨List.cons_ne_nil _ _, rfl⟩

theorem begin_taken {frames : List JsonFrame} {token : JsonToken} {next : JsonReader}
    (found : begin frames token = some next) :
    next.Begun ∧ next.taken = outside frames ++ [token] := by
  cases token with
  | null | bool | number | string =>
    cases found
    exact give_taken _ frames
  | openArray | openObject =>
    simp only [begin] at found
    split at found
    · cases found
      exact ⟨trivial, rfl⟩
    · cases found
  | _ => cases found

theorem step_taken {reader next : JsonReader} {token : JsonToken} (begun : reader.Begun)
    (found : reader.step token = some next) :
    next.Begun ∧ next.taken = reader.taken ++ [token] := by
  cases reader with
  | nextValue frames => exact begin_taken found
  | firstItem frames =>
    by_cases empty : token = .closeArray
    · subst empty
      cases found
      obtain ⟨given, taken⟩ := give_taken (.array []) frames
      exact ⟨given, taken.trans (by simp [JsonReader.taken, Json.tokens, Json.tokensOfItems])⟩
    · have value : begin (.array [] :: frames) token = some next := by
        cases token <;> first | exact found | exact absurd rfl empty
      have taken := begin_taken value
      rwa [outside_cons] at taken
  | firstKey frames =>
    cases token with
    | closeObject =>
      cases found
      obtain ⟨given, taken⟩ := give_taken (.object []) frames
      exact ⟨given, taken.trans (by simp [JsonReader.taken, Json.tokens, Json.tokensOfMembers])⟩
    | string key =>
      cases found
      exact ⟨trivial, by simp [taken]⟩
    | _ => cases found
  | afterItem frames items =>
    obtain ⟨last, before, rfl⟩ := List.exists_cons_of_ne_nil begun
    cases token with
    | comma =>
      cases found
      exact ⟨trivial, by simp [taken, outside_cons, JsonFrame.tokens, Json.itemTokens]⟩
    | closeArray =>
      cases found
      obtain ⟨given, taken⟩ := give_taken (.array (last :: before).reverse) frames
      refine ⟨given, taken.trans ?_⟩
      rw [List.reverse_cons, Json.tokens, Json.tokensOfItems_last]
      simp [JsonReader.taken, outside_cons, JsonFrame.tokens]
    | _ => cases found
  | afterMember frames members =>
    obtain ⟨⟨key, value⟩, before, rfl⟩ := List.exists_cons_of_ne_nil begun
    cases token with
    | comma =>
      cases found
      exact ⟨trivial, by simp [taken, outside_cons, JsonFrame.tokens, Json.memberTokens]⟩
    | closeObject =>
      cases found
      obtain ⟨given, taken⟩ := give_taken (.object ((key, value) :: before).reverse) frames
      refine ⟨given, taken.trans ?_⟩
      rw [List.reverse_cons, Json.tokens, Json.tokensOfMembers_last]
      simp [JsonReader.taken, outside_cons, JsonFrame.tokens, Json.memberTokens]
    | _ => cases found
  | nextKey frames members =>
    cases token with
    | string key =>
      cases found
      exact ⟨trivial, by simp [taken]⟩
    | _ => cases found
  | afterKey frames members key =>
    cases token with
    | colon =>
      cases found
      exact ⟨trivial, by simp [taken, outside_cons, JsonFrame.tokens]⟩
    | _ => cases found
  | complete => cases found

theorem run_taken {reader : JsonReader} {tokens rest : List JsonToken} {document : Json}
    (begun : reader.Begun) (found : reader.run tokens = some (document, rest)) :
    reader.taken ++ tokens = document.tokens ++ rest := by
  induction tokens generalizing reader with
  | nil =>
    cases reader <;> cases found
    rfl
  | cons token others ih =>
    rcases run_cons found with ⟨rfl, rfl⟩ | ⟨next, step, further⟩
    · rfl
    · obtain ⟨nextBegun, nextTaken⟩ := step_taken begun step
      have whole := ih nextBegun further
      rw [nextTaken, List.append_assoc, List.singleton_append] at whole
      exact whole

theorem step_number_number {reader next : JsonReader} {first second : JsonNumber}
    (found : reader.step (.number first) = some next) : next.step (.number second) = none := by
  have given (frames : List JsonFrame) :
      (give (.number first) frames).step (.number second) = none := by
    rcases frames with - | ⟨items | ⟨members, key⟩, frames⟩ <;> rfl
  cases reader with
  | nextValue frames | firstItem frames =>
    cases found
    exact given _
  | _ => cases found

theorem separated_of_run {reader : JsonReader} {tokens : List JsonToken} {document : Json}
    (found : reader.run tokens = some (document, [])) : JsonToken.Separated tokens := by
  induction tokens generalizing reader with
  | nil => exact .nil
  | cons token others ih =>
    rcases run_cons found with ⟨_, impossible⟩ | ⟨next, step, further⟩
    · cases impossible
    · rw [JsonToken.Separated, List.isChain_cons]
      refine ⟨?_, ih further⟩
      intro second isSecond isNumber
      by_contra both
      rw [Bool.not_eq_false] at both
      obtain ⟨tail, rfl⟩ := List.head?_eq_some_iff.mp isSecond
      cases token <;> cases isNumber
      cases second <;> cases both
      rcases run_cons further with ⟨_, impossible⟩ | ⟨_, again, _⟩
      · cases impossible
      · rw [step_number_number step] at again
        cases again

end JsonReader

namespace Json

open JsonToken (Spells)

theorem readFirst_eq_some_iff (tokens rest : List JsonToken) (document : Json) :
    readFirst tokens = some (document, rest) ↔
      tokens = document.tokens ++ rest ∧ document.depth ≤ JsonReader.maxDepth := by
  have reads : readFirst (document.tokens ++ rest) =
      if document.depth ≤ JsonReader.maxDepth then some (document, rest) else none := by
    rw [readFirst, JsonReader.run_tokens document [] rest (Nat.zero_le _)]
    cases rest <;> rfl
  constructor
  · intro found
    have begun : (JsonReader.nextValue []).Begun := trivial
    have split : tokens = document.tokens ++ rest := JsonReader.run_taken begun found
    rw [split, reads] at found
    by_contra deep
    rw [if_neg fun shallow => deep ⟨split, shallow⟩] at found
    cases found
  · rintro ⟨rfl, shallow⟩
    rw [reads, if_pos shallow]

theorem readWritten_eq_some_iff_readFirst (text : List Char) (document : Json) :
    readWritten text = some document ↔
      readFirst (JsonToken.ofText text) = some (document, []) := by
  rw [readWritten]
  split
  · rename_i other found
    simp [found]
  · rename_i unfinished
    constructor
    · intro impossible
      cases impossible
    · intro found
      exact absurd found (unfinished document)

/-- The texts that are read, and what they are read as. -/
theorem readWritten_eq_some_iff (text : List Char) (document : Json) :
    readWritten text = some document ↔
      Spells document.tokens text ∧ document.depth ≤ JsonReader.maxDepth := by
  rw [readWritten_eq_some_iff_readFirst]
  constructor
  · intro found
    obtain ⟨tokens, shallow⟩ := (readFirst_eq_some_iff _ _ _).mp found
    rw [List.append_nil] at tokens
    rw [← tokens]
    refine ⟨JsonToken.spells_ofText text ?_, shallow⟩
    intro broken
    cases JsonReader.malformed_mem_rest found broken
  · rintro ⟨spells, shallow⟩
    have found := (readFirst_eq_some_iff (document.tokens ++ []) [] document).mpr ⟨rfl, shallow⟩
    rw [List.append_nil] at found
    rw [JsonToken.ofText_of_spells spells (JsonReader.separated_of_run found)]
    exact found

end Json

end TableServer
