import TableServer.Proofs.Json.Meaning
import TableServer.Proofs.Where.OperatorNames
import TableServer.Where.Reader

/-! Reading a specification: which documents are one and which it is, and of the others what is
found wrong with them first. -/

namespace TableServer

theorem toNat_toUpper (c : Char) :
    c.toUpper.toNat = if 97 ≤ c.toNat ∧ c.toNat ≤ 122 then c.toNat - 32 else c.toNat := by
  unfold Char.toUpper
  split
  · rename_i isLower
    have bounds : 97 ≤ c.toNat ∧ c.toNat ≤ 122 := isLower
    -- The distance between the cases is negative, and the units are taken modulo `2 ^ 32`.
    have distance : ('A'.val - 'a'.val).toNat = 2 ^ 32 - 32 := by decide
    have moved : (c.val + ('A'.val - 'a'.val)).toNat = (c.toNat + (2 ^ 32 - 32)) % 2 ^ 32 := by
      rw [UInt32.toNat_add, distance]
      rfl
    rw [if_pos bounds]
    change (c.val + ('A'.val - 'a'.val)).toNat = c.toNat - 32
    omega
  · rename_i noLower
    exact (if_neg noLower).symm

theorem toUpper_eq_iff (upper lower : Char) (isUpper : upper.isUpper = true)
    (isLower : lower.toNat = upper.toNat + 32) (c : Char) :
    c.toUpper = upper ↔ c = upper ∨ c = lower := by
  have bounds : 65 ≤ upper.toNat ∧ upper.toNat ≤ 90 := of_decide_eq_true isUpper
  rw [← Char.toNat_inj, ← Char.toNat_inj, ← Char.toNat_inj, toNat_toUpper]
  split <;> omega

namespace Conjunction

/-- The texts that are `OR` but for the letter case of ASCII. -/
def orNames : List String :=
  ["OR", "Or", "oR", "or"]

theorem ofName_eq_or_iff (text : String) : ofName text = .or ↔ text ∈ orNames := by
  have letters : text.toList.map Char.toUpper = ['O', 'R'] ↔ text ∈ orNames := by
    constructor
    · intro upper
      obtain ⟨first, rest, split, isO, further⟩ := List.map_eq_cons_iff.mp upper
      obtain ⟨second, ends, splitRest, isR, done⟩ := List.map_eq_cons_iff.mp further
      rw [splitRest, List.map_eq_nil_iff.mp done] at split
      have pair : text = String.ofList [first, second] := by
        rw [← split, String.ofList_toList]
      have letterO := (toUpper_eq_iff 'O' 'o' (by decide) (by decide) first).mp isO
      have letterR := (toUpper_eq_iff 'R' 'r' (by decide) (by decide) second).mp isR
      rw [pair]
      rcases letterO with rfl | rfl <;> rcases letterR with rfl | rfl <;> decide
    · intro isName
      simp only [orNames, List.mem_cons, List.not_mem_nil, or_false] at isName
      rcases isName with rfl | rfl | rfl | rfl <;> decide
  rw [← letters, ofName]
  by_cases isOr : text.toList.map Char.toUpper = ['O', 'R'] <;> simp [isOr]

end Conjunction

/-- Of a total reading it is enough to know what it makes of what it accepts and refuses. -/
theorem outcome_iff {ε α : Type} {outcome : Except ε α} {accepts : α → Prop} {refuses : ε → Prop}
    (ok : ∀ result, accepts result → outcome = .ok result)
    (error : ∀ cause, refuses cause → outcome = .error cause)
    (total : (∃ result, accepts result) ∨ ∃ cause, refuses cause) :
    (∀ result, outcome = .ok result ↔ accepts result) ∧
      ∀ cause, outcome = .error cause ↔ refuses cause := by
  rcases total with ⟨first, accepted⟩ | ⟨first, refused⟩
  · have same := ok first accepted
    constructor
    · intro result
      refine ⟨?_, ok result⟩
      intro found
      rw [same] at found
      cases found
      exact accepted
    · intro cause
      refine ⟨?_, error cause⟩
      intro found
      rw [same] at found
      cases found
  · have same := error first refused
    constructor
    · intro result
      refine ⟨?_, ok result⟩
      intro found
      rw [same] at found
      cases found
    · intro cause
      refine ⟨?_, error cause⟩
      intro found
      rw [same] at found
      cases found
      exact refused

def Json.NoText (found : Json) : Prop :=
  found ≠ .null ∧ ∀ text, found ≠ .string text

theorem Json.missing_or_text (found : Option Json) :
    found = none ∨ found = some .null ∨ (∃ text, found = some (.string text)) ∨
      ∃ other, found = some other ∧ other.NoText := by
  rcases found with - | (_ | _ | _ | text | _ | _)
  · exact Or.inl rfl
  · exact Or.inr (Or.inl rfl)
  · exact Or.inr (Or.inr (Or.inr ⟨_, rfl, by simp [NoText]⟩))
  · exact Or.inr (Or.inr (Or.inr ⟨_, rfl, by simp [NoText]⟩))
  · exact Or.inr (Or.inr (Or.inl ⟨text, rfl⟩))
  · exact Or.inr (Or.inr (Or.inr ⟨_, rfl, by simp [NoText]⟩))
  · exact Or.inr (Or.inr (Or.inr ⟨_, rfl, by simp [NoText]⟩))

namespace Condition

inductive OperatorFor : Option Json → Operator → Prop where
  | missing : OperatorFor none .equal
  | null : OperatorFor (some .null) .equal
  | named {text : String} {operator : Operator}
      (names : operator.name.toList = upperCase text.toList) :
      OperatorFor (some (.string text)) operator

inductive OperatorOffends (field : String) : Option Json → WhereError → Prop where
  | unknown {text : String}
      (nameless : ∀ operator : Operator, operator.name.toList ≠ upperCase text.toList) :
      OperatorOffends field (some (.string text)) (.unknownOperator text)
  | noText {found : Json} (noText : found.NoText) :
      OperatorOffends field (some found) (.operatorNotString field found)

inductive ConjunctionFor : Option Json → Conjunction → Prop where
  | missing : ConjunctionFor none .and
  | null : ConjunctionFor (some .null) .and
  | or {text : String} (isOr : text ∈ Conjunction.orNames) :
      ConjunctionFor (some (.string text)) .or
  | and {text : String} (notOr : text ∉ Conjunction.orNames) :
      ConjunctionFor (some (.string text)) .and

inductive ConjunctionOffends (field : String) : Option Json → WhereError → Prop where
  | noText {found : Json} (noText : found.NoText) :
      ConjunctionOffends field (some found) (.conjunctionNotString field found)

inductive ReadAs : Json → Condition → Prop where
  | fields {members : List (String × Json)} {operator : Operator} {conjunction : Conjunction}
      (isOperator : OperatorFor (Entries.get? members "operator") operator)
      (isConjunction : ConjunctionFor (Entries.get? members "condition") conjunction) :
      ReadAs (.object members)
        ⟨operator, conjunction, (Entries.get? members "value").getD .null⟩

inductive Offends (field : String) : Json → WhereError → Prop where
  | shape {value : Json} (noObject : value.asObject? = none) :
      Offends field value (.conditionNotObject field)
  | operator {members : List (String × Json)} {error : WhereError}
      (offends : OperatorOffends field (Entries.get? members "operator") error) :
      Offends field (.object members) error
  | conjunction {members : List (String × Json)} {operator : Operator} {error : WhereError}
      (isOperator : OperatorFor (Entries.get? members "operator") operator)
      (offends : ConjunctionOffends field (Entries.get? members "condition") error) :
      Offends field (.object members) error

theorem readOperator_outcome (field : String) (found : Option Json) :
    (∀ operator, readOperator field found = .ok operator ↔ OperatorFor found operator) ∧
      ∀ error, readOperator field found = .error error ↔ OperatorOffends field found error := by
  apply outcome_iff
  · intro operator accepted
    cases accepted with
    | missing | null => rfl
    | named names =>
      have isName := (Operator.name_eq_upperCase_iff _ _).mp names
      rw [readOperator, (Operator.ofName?_eq_some_iff _ _).mpr isName]
  · intro error refused
    cases refused with
    | @unknown text nameless =>
      have unnamed : Operator.ofName? text = none := by
        rw [Option.eq_none_iff_forall_ne_some]
        intro operator named
        have isName := (Operator.ofName?_eq_some_iff text operator).mp named
        exact nameless operator ((operator.name_eq_upperCase_iff text).mpr isName)
      rw [readOperator, unnamed]
    | @noText other noText =>
      cases other with
      | null => exact absurd rfl noText.1
      | string text => exact absurd rfl (noText.2 text)
      | bool | number | array | object => rfl
  · rcases Json.missing_or_text found with rfl | rfl | ⟨text, rfl⟩ | ⟨other, rfl, noText⟩
    · exact Or.inl ⟨_, .missing⟩
    · exact Or.inl ⟨_, .null⟩
    · by_cases named : ∃ operator : Operator, operator.name.toList = upperCase text.toList
      · obtain ⟨operator, names⟩ := named
        exact Or.inl ⟨operator, .named names⟩
      · exact Or.inr ⟨_, .unknown fun operator names => named ⟨operator, names⟩⟩
    · exact Or.inr ⟨_, .noText noText⟩

theorem readConjunction_outcome (field : String) (found : Option Json) :
    (∀ conjunction, readConjunction field found = .ok conjunction ↔
      ConjunctionFor found conjunction) ∧
      ∀ error, readConjunction field found = .error error ↔
        ConjunctionOffends field found error := by
  apply outcome_iff
  · intro conjunction accepted
    cases accepted with
    | missing | null => rfl
    | or isOr => rw [readConjunction, (Conjunction.ofName_eq_or_iff _).mpr isOr]
    | @and text notOr =>
      rw [readConjunction]
      cases named : Conjunction.ofName text with
      | and => rfl
      | or => exact absurd ((Conjunction.ofName_eq_or_iff text).mp named) notOr
  · intro error refused
    cases refused with
    | @noText other noText =>
      cases other with
      | null => exact absurd rfl noText.1
      | string text => exact absurd rfl (noText.2 text)
      | bool | number | array | object => rfl
  · rcases Json.missing_or_text found with rfl | rfl | ⟨text, rfl⟩ | ⟨other, rfl, noText⟩
    · exact Or.inl ⟨_, .missing⟩
    · exact Or.inl ⟨_, .null⟩
    · by_cases isOr : text ∈ Conjunction.orNames
      · exact Or.inl ⟨_, .or isOr⟩
      · exact Or.inl ⟨_, .and isOr⟩
    · exact Or.inr ⟨_, .noText noText⟩

theorem ofJson_outcome (field : String) (value : Json) :
    (∀ condition, ofJson field value = .ok condition ↔ ReadAs value condition) ∧
      ∀ error, ofJson field value = .error error ↔ Offends field value error := by
  apply outcome_iff
  · intro condition accepted
    cases accepted with
    | fields isOperator isConjunction =>
      rw [ofJson, ((readOperator_outcome field _).1 _).mpr isOperator,
        ((readConjunction_outcome field _).1 _).mpr isConjunction]
      rfl
  · intro error refused
    cases refused with
    | shape noObject =>
      cases value with
      | object => cases noObject
      | null | bool | number | string | array => rfl
    | operator offends =>
      rw [ofJson, ((readOperator_outcome field _).2 _).mpr offends]
      rfl
    | conjunction isOperator offends =>
      rw [ofJson, ((readOperator_outcome field _).1 _).mpr isOperator,
        ((readConjunction_outcome field _).2 _).mpr offends]
      rfl
  · cases value with
    | null | bool | number | string | array => exact Or.inr ⟨_, .shape rfl⟩
    | object members =>
      cases operator : readOperator field (Entries.get? members "operator") with
      | error cause =>
        exact Or.inr ⟨cause, .operator (((readOperator_outcome field _).2 cause).mp operator)⟩
      | ok found =>
        have isOperator := ((readOperator_outcome field _).1 found).mp operator
        cases conjunction : readConjunction field (Entries.get? members "condition") with
        | error cause =>
          have offends := ((readConjunction_outcome field _).2 cause).mp conjunction
          exact Or.inr ⟨cause, .conjunction isOperator offends⟩
        | ok joined =>
          have isConjunction := ((readConjunction_outcome field _).1 joined).mp conjunction
          exact Or.inl ⟨_, .fields isOperator isConjunction⟩

end Condition

namespace Where

def ClauseFor (member : String × Json) (clause : String × Condition) : Prop :=
  Condition.ReadAs member.2 clause.2 ∧ member.1 = clause.1

/-- The keys of a value are distinct, and then the clauses stand as the members do. -/
def ReadAs (document : Json) (spec : Where) : Prop :=
  ∃ (members : Entries Json) (clauses : Entries Condition), document = .object members ∧
    List.Forall₂ ClauseFor members clauses ∧ Entries.KeepsLast clauses spec.clauses

inductive Offends : Json → WhereError → Prop where
  | shape {document : Json} (noObject : document.asObject? = none) : Offends document .notObject
  | clause {earlier later : Entries Json} {member : String × Json} {error : WhereError}
      (accepted : ∀ other ∈ earlier, ∃ condition, Condition.ReadAs other.2 condition)
      (offends : Condition.Offends member.1 member.2 error) :
      Offends (.object (earlier ++ member :: later)) error

theorem readClauses_of_each {members : Entries Json} {clauses : Entries Condition}
    (each : List.Forall₂ ClauseFor members clauses) (spec : Where) :
    readClauses spec members =
      .ok ⟨clauses.foldl (fun entries clause => entries.put clause.1 clause.2) spec.clauses⟩ := by
  induction each generalizing spec with
  | nil => rfl
  | @cons member clause members clauses first further ih =>
    obtain ⟨field, value⟩ := member
    obtain ⟨name, condition⟩ := clause
    obtain ⟨isCondition, rfl⟩ := first
    rw [readClauses, ((Condition.ofJson_outcome field value).1 condition).mpr isCondition]
    exact ih (spec.insert field condition)

theorem readClauses_of_offending {earlier later : Entries Json} {member : String × Json}
    {error : WhereError}
    (accepted : ∀ other ∈ earlier, ∃ condition, Condition.ReadAs other.2 condition)
    (offends : Condition.Offends member.1 member.2 error) (spec : Where) :
    readClauses spec (earlier ++ member :: later) = .error error := by
  induction earlier generalizing spec with
  | nil =>
    obtain ⟨field, value⟩ := member
    rw [List.nil_append, readClauses, ((Condition.ofJson_outcome field value).2 error).mpr offends]
  | cons first rest ih =>
    obtain ⟨field, value⟩ := first
    rw [List.forall_mem_cons] at accepted
    obtain ⟨⟨condition, isCondition⟩, others⟩ := accepted
    rw [List.cons_append, readClauses,
      ((Condition.ofJson_outcome field value).1 condition).mpr isCondition]
    exact ih others (spec.insert field condition)

theorem each_or_offending (members : Entries Json) :
    (∃ clauses, List.Forall₂ ClauseFor members clauses) ∨
      ∃ error, Offends (.object members) error := by
  induction members with
  | nil => exact Or.inl ⟨[], .nil⟩
  | cons member rest ih =>
    cases first : Condition.ofJson member.1 member.2 with
    | error cause =>
      have offends := ((Condition.ofJson_outcome _ _).2 cause).mp first
      exact Or.inr ⟨cause, @Offends.clause [] rest member cause (by simp) offends⟩
    | ok condition =>
      have isCondition := ((Condition.ofJson_outcome _ _).1 condition).mp first
      rcases ih with ⟨clauses, each⟩ | ⟨error, offends⟩
      · exact Or.inl ⟨(member.1, condition) :: clauses, .cons ⟨isCondition, rfl⟩ each⟩
      · cases offends with
        | shape noObject => cases noObject
        | @clause earlier later other _ accepted offends =>
          refine Or.inr ⟨error, @Offends.clause (member :: earlier) later other error ?_ offends⟩
          exact List.forall_mem_cons.mpr ⟨⟨condition, isCondition⟩, accepted⟩

theorem ofJson_eq_iff (document : Json) :
    (∀ spec, ofJson document = .ok spec ↔ ReadAs document spec) ∧
      ∀ error, ofJson document = .error error ↔ Offends document error := by
  apply outcome_iff
  · rintro ⟨clauses⟩ ⟨members, pairs, rfl, each, keeps⟩
    have same : clauses = Entries.ofList pairs := (Entries.keepsLast_iff pairs clauses).mp keeps
    rw [ofJson, readClauses_of_each each, same]
    rfl
  · intro error refused
    cases refused with
    | shape noObject =>
      cases document with
      | object => cases noObject
      | null | bool | number | string | array => rfl
    | clause accepted offends => exact readClauses_of_offending accepted offends empty
  · cases document with
    | null | bool | number | string | array => exact Or.inr ⟨_, .shape rfl⟩
    | object members =>
      rcases each_or_offending members with ⟨clauses, each⟩ | offends
      · have keeps := (Entries.keepsLast_iff clauses _).mpr rfl
        exact Or.inl ⟨⟨Entries.ofList clauses⟩, members, clauses, rfl, each, keeps⟩
      · exact Or.inr offends

theorem keys_of_each {members : Entries Json} {clauses : Entries Condition}
    (each : List.Forall₂ ClauseFor members clauses) : Entries.keys clauses = members.keys := by
  induction each with
  | nil => rfl
  | cons first further ih =>
    rw [Entries.keys, Entries.keys, List.map_cons, List.map_cons, first.2]
    exact congrArg _ ih

theorem ofJson_of_distinct {members : Entries Json} {clauses : Entries Condition}
    (distinct : members.Distinct) (each : List.Forall₂ ClauseFor members clauses) :
    ofJson (.object members) = .ok ⟨clauses⟩ := by
  have same : Entries.ofList clauses = clauses := by
    apply Entries.ofList_of_distinct
    rw [Entries.Distinct, keys_of_each each]
    exact distinct
  apply ((ofJson_eq_iff _).1 _).mpr
  exact ⟨members, clauses, rfl, each, (Entries.keepsLast_iff _ _).mpr same.symm⟩

def build (inserts : List (String × Condition)) : Where :=
  inserts.foldl (fun spec clause => spec.insert clause.1 clause.2) empty

theorem build_eq (inserts : List (String × Condition)) :
    build inserts = ⟨Entries.ofList inserts⟩ := by
  suffices general : ∀ spec : Where,
      inserts.foldl (fun spec clause => spec.insert clause.1 clause.2) spec =
        ⟨inserts.foldl (fun entries clause => entries.put clause.1 clause.2) spec.clauses⟩ from
    general empty
  induction inserts with
  | nil => exact fun _ => rfl
  | cons clause rest ih => exact fun spec => ih (spec.insert clause.1 clause.2)

theorem readAs_toJson (condition : Condition) : Condition.ReadAs condition.toJson condition := by
  obtain ⟨operator, conjunction, value⟩ := condition
  have isOperator : Condition.OperatorFor (some (.string operator.name)) operator :=
    .named ((operator.name_eq_upperCase_iff _).mpr operator.name_mem_names)
  have isConjunction : Condition.ConjunctionFor (some (.string conjunction.name)) conjunction := by
    cases conjunction with
    | and => exact .and (by decide)
    | or => exact .or (by decide)
  exact .fields isOperator isConjunction

theorem ofJson_toJson {spec : Where} (distinct : spec.clauses.Distinct) :
    ofJson spec.toJson = .ok spec := by
  have each : List.Forall₂ ClauseFor
      (spec.clauses.map fun clause => (clause.1, clause.2.toJson)) spec.clauses := by
    rw [List.forall₂_map_left_iff, List.forall₂_same]
    exact fun clause _ => ⟨readAs_toJson clause.2, rfl⟩
  apply ofJson_of_distinct _ each
  rw [Entries.Distinct, ← keys_of_each each]
  exact distinct

theorem ofText_of_read {text : List Char} {written document : Json}
    (spells : JsonToken.Spells written.tokens text) (shallow : written.depth ≤ JsonReader.maxDepth)
    (stands : Json.StandsFor written document) :
    ofText text = (ofJson document).mapError .invalid := by
  have found := (Json.readWritten_eq_some_iff text written).mpr ⟨spells, shallow⟩
  rw [Json.readWritten_eq_some_iff_readFirst] at found
  have resolves := (Json.resolved?_eq_some_iff written document).mpr stands
  simp only [ofText, found, resolves]
  cases ofJson document <;> rfl

/-- What reading makes of every document and of every text, that it undoes writing, and which texts
name an operator. -/
theorem reading_outcome :
    (∀ document spec, ofJson document = .ok spec ↔ ReadAs document spec) ∧
    (∀ document error, ofJson document = .error error ↔ Offends document error) ∧
    (∀ (members : Entries Json) clauses, members.Distinct →
      List.Forall₂ ClauseFor members clauses → ofJson (.object members) = .ok ⟨clauses⟩) ∧
    (∀ inserts, ofJson (build inserts).toJson = .ok (build inserts)) ∧
    (∀ text written document, JsonToken.Spells written.tokens text →
      written.depth ≤ JsonReader.maxDepth → Json.StandsFor written document →
      ofText text = (ofJson document).mapError .invalid) ∧
    (∀ text members entries, JsonToken.Spells (Json.object members).tokens text →
      (Json.object members).depth ≤ JsonReader.maxDepth → Json.isEmbedding members = false →
      Json.MembersStandFor members entries →
      ofText text = (ofJson (.object entries)).mapError .invalid) ∧
    ∀ (text : String) (operator : Operator),
      operator.name.toList = upperCase text.toList ↔ text ∈ operator.names := by
  refine ⟨fun document => (ofJson_eq_iff document).1, fun document => (ofJson_eq_iff document).2,
    fun members clauses => ofJson_of_distinct, ?_, fun text written document => ofText_of_read, ?_,
    fun text operator => operator.name_eq_upperCase_iff text⟩
  · intro inserts
    apply ofJson_toJson
    rw [build_eq]
    exact Entries.distinct_ofList inserts
  · intro text members entries spells shallow plain stand
    exact ofText_of_read spells shallow ((Json.standsFor_object_iff plain _).mpr ⟨_, stand, rfl⟩)

def repeated : Json :=
  .object [("a", .object [("operator", .string "~")]), ("a", .object [])]

theorem reading_outcome_of_repeated :
    ofText repeated.write = .ok ⟨[("a", ⟨.equal, .and, .null⟩)]⟩ ∧
      ofText repeated.write =
        (ofJson (.object [("a", .object [])])).mapError .invalid ∧
      ofJson repeated = .error (.unknownOperator "~") := by
  have found : Json.readWritten repeated.write = some repeated := by
    rw [Json.readWritten_write]
    rfl
  obtain ⟨spells, shallow⟩ := (Json.readWritten_eq_some_iff _ _).mp found
  have noMembers : Json.MembersStandFor [] [] :=
    ⟨[], .nil, (Entries.keepsLast_iff _ _).mpr rfl⟩
  have empty : Json.StandsFor (.object []) (.object []) :=
    (Json.standsFor_object_iff rfl _).mpr ⟨_, noMembers, rfl⟩
  have named : Json.StandsFor (.object [("operator", .string "~")])
      (.object [("operator", .string "~")]) :=
    (Json.standsFor_object_iff rfl _).mpr
      ⟨_, ⟨_, .cons ⟨.string "~", rfl⟩ .nil, (Entries.keepsLast_iff _ _).mpr rfl⟩, rfl⟩
  have stand : Json.MembersStandFor
      [("a", .object [("operator", .string "~")]), ("a", .object [])] [("a", .object [])] :=
    ⟨_, .cons ⟨named, rfl⟩ (.cons ⟨empty, rfl⟩ .nil), (Entries.keepsLast_iff _ _).mpr rfl⟩
  have stands : Json.StandsFor repeated (.object [("a", .object [])]) :=
    (Json.standsFor_object_iff rfl _).mpr ⟨_, stand, rfl⟩
  obtain ⟨_, refuses, inOrder, _, verdict, ofMembers, spelled⟩ := reading_outcome
  have nameless (operator : Operator) : operator.name.toList ≠ upperCase "~".toList := by
    rw [ne_eq, spelled]
    cases operator <;> decide +kernel
  have unknown : Offends repeated (.unknownOperator "~") :=
    @Offends.clause [] _ _ _ (by simp) (.operator (.unknown nameless))
  have clauses := inOrder [("a", .object [])] [("a", ⟨.equal, .and, .null⟩)]
    (by simp [Entries.Distinct, Entries.keys]) (.cons ⟨.fields .missing .missing, rfl⟩ .nil)
  refine ⟨?_, ofMembers _ _ _ spells shallow rfl stand, (refuses _ _).mpr unknown⟩
  rw [verdict _ _ _ spells shallow stands, clauses]
  rfl

end Where

end TableServer
