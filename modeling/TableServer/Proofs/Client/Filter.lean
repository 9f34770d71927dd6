import TableServer.Client.CommandLine
import TableServer.Proofs.Client.Reach
import TableServer.Proofs.Client.Target
import TableServer.Proofs.Users.Filtering

/-! A filter on its way from the client to the server. The library and the command line send the
same message for it, the server reads the pairs from it that the filter has, and what it looks for
are the texts of the filter as they were given. -/

namespace TableServer

def Transport.noting {σ : Type} (transport : Transport σ) : Transport (List Message × σ) :=
  fun message state =>
    let (response, next) := transport message state.2
    (response, state.1 ++ [message], next)

namespace CommandSpec

def attached (option : String × String) : String :=
  "--" ++ option.1 ++ "=" ++ option.2

theorem step_attached {spec : CommandSpec} {option : OptionSpec} {name : String}
    (known : spec.options.find? (·.name == name) = some option) (noEquals : '=' ∉ name.toList)
    (arguments : Arguments) (value : String) :
    spec.step arguments (attached (name, value)).toList = giveValue arguments option value := by
  have text : (attached (name, value)).toList =
      '-' :: '-' :: (name.toList ++ '=' :: value.toList) := by
    simp [attached]
  have step : spec.step arguments ('-' :: '-' :: (name.toList ++ '=' :: value.toList)) =
      spec.longStep arguments (name.toList ++ '=' :: value.toList) := by
    cases name.toList <;> rfl
  have isName : (name.toList ++ '=' :: value.toList).takeWhile (· != '=') = name.toList := by
    rw [List.takeWhile_append_of_pos (ne_of_absent noEquals),
      List.takeWhile_cons_of_neg (by decide), List.append_nil]
  have isValue : (name.toList ++ '=' :: value.toList).dropWhile (· != '=') =
      '=' :: value.toList := by
    rw [List.dropWhile_append_of_pos (ne_of_absent noEquals),
      List.dropWhile_cons_of_neg (by decide)]
  rw [text, step]
  simp only [longStep, isName, isValue, String.ofList_toList, known]

theorem readFrom_attached {spec : CommandSpec} {option : OptionSpec} {name : String}
    (known : spec.options.find? (·.name == name) = some option) (noEquals : '=' ∉ name.toList)
    (acceptsEmpty : option.acceptsEmpty = true) {arguments : Arguments}
    (isNew : arguments.values.has option.name = false) (value : String) (rest : List String) :
    spec.readFrom none arguments (attached (name, value) :: rest) =
      spec.readFrom none ⟨arguments.values.put option.name value, arguments.operands⟩ rest := by
  simp [readFrom, step_attached known noEquals, giveValue, Arguments.give?, isNew, acceptsEmpty]

end CommandSpec

namespace Client

open CommandSpec (attached)

variable {σ : Type}

theorem exchange_noting (transport : Transport σ) (message : Option Message) (state : σ) :
    (exchange transport.noting message ([], state)).2.1 = message.toList := by
  cases message <;> rfl

def listArguments (base : String) (filter : UserFilter) : List String :=
  attached ("url", base) :: "list" :: filter.pairs.map attached

theorem read_listArguments (base : String) (filter : UserFilter) :
    mainSpec.read (listArguments base filter) =
      .command ⟨[("url", base)], []⟩ "list" (filter.pairs.map attached) := by
  have known : mainSpec.options.find? (·.name == "url") = some ⟨"url", some 'u', true⟩ := rfl
  rw [CommandSpec.read, listArguments, CommandSpec.readFrom_attached known (by decide) rfl rfl]
  rfl

theorem read_filter (filter : UserFilter) :
    (commandSpec 0 ["name", "email"]).read (filter.pairs.map attached) =
      .complete ⟨filter.pairs, []⟩ := by
  have name : (commandSpec 0 ["name", "email"]).options.find? (·.name == "name") =
      some (textOption "name") := rfl
  have email : (commandSpec 0 ["name", "email"]).options.find? (·.name == "email") =
      some (textOption "email") := rfl
  obtain ⟨_ | nameText, _ | emailText⟩ := filter
  · rfl
  · exact CommandSpec.readFrom_attached email (by decide) rfl rfl emailText []
  · exact CommandSpec.readFrom_attached name (by decide) rfl rfl nameText []
  · calc
      _ = (commandSpec 0 ["name", "email"]).readFrom none ⟨[("name", nameText)], []⟩
          [attached ("email", emailText)] :=
        CommandSpec.readFrom_attached name (by decide) rfl rfl nameText _
      _ = _ := CommandSpec.readFrom_attached email (by decide) rfl rfl emailText []

theorem readArguments_listArguments (base : String) (filter : UserFilter) :
    readArguments (listArguments base filter) = .run base (.list filter) := by
  have url : (Arguments.value? ⟨[("url", base)], []⟩ "url").getD defaultBase = base := rfl
  have command : commandOf? "list" ⟨filter.pairs, []⟩ = some (.list filter) := by
    obtain ⟨_ | name, _ | email⟩ := filter <;> rfl
  have spec : specOf? "list" = some (commandSpec 0 ["name", "email"]) := rfl
  have noHelp : ("list" == "help") = false := by decide
  simp only [readArguments, read_listArguments, url, readCommand, noHelp, spec, read_filter,
    command, Bool.false_eq_true, if_false]

/-- The messages that a listing sends, by the library and by any command line that asks for it. -/
structure Sends (base : String) (filter : UserFilter) (messages : List Message) : Prop where
  library : ∀ {σ : Type} (transport : Transport σ) (state : σ),
    (listUsers transport.noting base filter ([], state)).2.1 = messages
  commandLine : ∀ arguments, readArguments arguments = .run base (.list filter) →
    ∀ {σ : Type} (transport : Transport σ) (state : σ),
      (run transport.noting arguments ([], state)).2.1 = messages

theorem listUsers_state (transport : Transport σ) (base : String) (filter : UserFilter)
    (state : σ) : (listUsers transport base filter state).2 =
      (exchange transport (messageOf? base (.list filter)) state).2 := by
  rw [listUsers, messageOf?]

theorem sends_listMessage? (base : String) (filter : UserFilter) :
    Sends base filter (listMessage? base filter).toList where
  library transport state := by
    rw [listUsers_state, exchange_noting, messageOf?]
  commandLine arguments isRun _ transport state := by
    rw [run_state transport.noting isRun, exchange_noting, messageOf?]

/-- The pairs that the address of the server itself would ask with. -/
def basePairs (base : String) : Query :=
  (Url.read? (usersUrl base)).elim [] Url.ownPairs

theorem query_of_questionless {base : String} (noQuestion : '?' ∉ base.toList) {url : Url}
    (read : Url.read? (usersUrl base) = some url) : url.query = none := by
  refine Url.query_of_read? read ?_
  rw [usersUrl, trimSlashes, String.toList_append, String.toList_ofList, List.mem_append, not_or]
  refine ⟨fun member => noQuestion ?_, by decide⟩
  have kept := (List.dropWhile_sublist _).subset (List.mem_reverse.mp member)
  exact List.mem_reverse.mp kept

theorem basePairs_of_questionless {base : String} (noQuestion : '?' ∉ base.toList) :
    basePairs base = [] := by
  cases read : Url.read? (usersUrl base) with
  | none => simp [basePairs, read]
  | some url => simp [basePairs, read, Url.ownPairs, query_of_questionless noQuestion read]

theorem target_of_listMessage? {base : String} {filter : UserFilter} {message : Message}
    (sent : listMessage? base filter = some message) :
    ∃ url, Url.read? (usersUrl base) = some url ∧ url.IsClean ∧
      message.uri.target = (url.withPairs filter.pairs).target := by
  obtain ⟨url, read, sent⟩ := Option.bind_eq_some_iff.mp sent
  obtain ⟨_, isUri, _, _⟩ := Message.ofParts?_eq_some_iff.mp sent
  have clean := Url.isClean_of_read? read
  exact ⟨url, read, clean, (clean.withPairs filter.pairs).target_of_read? isUri⟩

theorem hasParts_of_listMessage? {base : String} (noQuestion : '?' ∉ base.toList)
    {filter : UserFilter} {message : Message} (sent : listMessage? base filter = some message) :
    ∃ path, HasParts message.uri.target path (Query.encode filter.pairs) := by
  obtain ⟨url, read, clean, target⟩ := target_of_listMessage? sent
  have onlyAdded : url.queryWith filter.pairs = Query.encode filter.pairs := by
    rw [Url.queryWith, query_of_questionless noQuestion read]
  rw [target, ← onlyAdded]
  exact ⟨_, clean.hasParts filter.pairs⟩

theorem ofTarget_of_listMessage? {base : String} {filter : UserFilter} {message : Message}
    (sent : listMessage? base filter = some message) :
    Query.ofTarget message.uri.target = basePairs base ++ filter.pairs := by
  obtain ⟨url, read, clean, target⟩ := target_of_listMessage? sent
  rw [target, clean.ofTarget_withPairs, basePairs, read, Option.elim_some]

theorem isSome_listMessage? {base : String} {url : Url} (read : Url.read? (usersUrl base) = some url)
    (unfiltered : (listMessage? base ⟨none, none⟩).isSome = true) {filter : UserFilter}
    (short : (url.withPairs filter.pairs).text.utf8ByteSize ≤ Uri.longestBytes) :
    (listMessage? base filter).isSome = true := by
  obtain ⟨other, sent⟩ := Option.isSome_iff_exists.mp unfiltered
  obtain ⟨same, readToo, sent⟩ := Option.bind_eq_some_iff.mp sent
  obtain rfl : url = same := Option.some.inj (read.symm.trans readToo)
  obtain ⟨_, _, isHeader, isBody⟩ := Message.ofParts?_eq_some_iff.mp sent
  have clean := (Url.isClean_of_read? read).withPairs filter.pairs
  have isUri := clean.read?_target ((Url.target_le_text _).trans short)
  have filtered : listMessage? base filter = some ⟨.get, _, other.headers, other.body⟩ :=
    Option.bind_eq_some_iff.mpr
      ⟨url, read, Message.ofParts?_eq_some_iff.mpr ⟨rfl, isUri, isHeader, isBody⟩⟩
  rw [filtered, Option.isSome_some]

theorem filterOfQuery_pairs (filter : UserFilter) :
    Users.filterOfQuery filter.pairs =
      if filter.name = none ∧ filter.email = none then none
      else some ⟨filter.pairs.map fun pair => (pair.1, ⟨.within, .or, .string pair.2⟩)⟩ := by
  obtain ⟨_ | name, _ | email⟩ := filter <;> rfl

/-- A filter arrives as it was given, whatever its texts are. A listing sends the encoding of its
pairs, the server reads these pairs, after those of an address that asks for something itself, and
what they look for are exactly the texts of the filter. -/
theorem filter_arrives (base : String) (filter : UserFilter) :
    let given := (filter.name.map fun text => ("name", text)).toList ++
      (filter.email.map fun text => ("email", text)).toList
    readArguments (listArguments base filter) = .run base (.list filter) ∧
    Sends base filter (listMessage? base filter).toList ∧
    (∀ message ∈ listMessage? base filter,
      Query.ofTarget message.uri.target = basePairs base ++ given ∧
      ('?' ∉ base.toList →
        (∃ path, HasParts message.uri.target path (Query.encode given)) ∧
        Query.ofTarget message.uri.target = given ∧
        Users.filterOfQuery (Query.ofTarget message.uri.target) =
          if filter.name = none ∧ filter.email = none then none
          else some ⟨given.map fun pair => (pair.1, ⟨.within, .or, .string pair.2⟩)⟩)) ∧
    (∀ url, Url.read? (usersUrl base) = some url → (listMessage? base ⟨none, none⟩).isSome = true →
      (url.withPairs given).text.utf8ByteSize ≤ Uri.longestBytes →
        (listMessage? base filter).isSome = true) ∧
    ∀ pairs, Query.ofText (Query.encode pairs) = pairs := by
  intro given
  have arrives {message : Message} (sent : message ∈ listMessage? base filter) :
      Query.ofTarget message.uri.target = basePairs base ++ given :=
    ofTarget_of_listMessage? sent
  refine ⟨readArguments_listArguments base filter, sends_listMessage? base filter, ?_,
    fun url read unfiltered short => isSome_listMessage? read unfiltered short, Query.ofText_encode⟩
  intro message sent
  refine ⟨arrives sent, fun noQuestion => ?_⟩
  have exactly : Query.ofTarget message.uri.target = given := by
    rw [arrives sent, basePairs_of_questionless noQuestion, List.nil_append]
  refine ⟨hasParts_of_listMessage? noQuestion sent, exactly, ?_⟩
  rw [exactly]
  exact filterOfQuery_pairs filter

theorem filter_arrives_at_default :
    let name := "a&b=c+d%41 #?é😀"
    let filter : UserFilter := ⟨some name, some ""⟩
    '?' ∉ defaultBase.toList ∧
      ∃ message, listMessage? defaultBase filter = some message ∧
        (∃ path, HasParts message.uri.target path
          "name=a%26b%3Dc%2Bd%2541+%23%3F%C3%A9%F0%9F%98%80&email=") ∧
        Query.ofTarget message.uri.target = [("name", name), ("email", "")] ∧
        Users.filterOfQuery (Query.ofTarget message.uri.target) =
          some ⟨[("name", ⟨.within, .or, .string name⟩), ("email", ⟨.within, .or, .string ""⟩)]⟩ := by
  intro name filter
  have noQuestion : '?' ∉ defaultBase.toList := by decide
  have read : Url.read? (usersUrl defaultBase) =
      some ⟨"http", "localhost:3000", ["users"], none⟩ := by decide +kernel
  have unfiltered : (listMessage? defaultBase ⟨none, none⟩).isSome = true := by decide +kernel
  have encoded : Query.encode filter.pairs =
      "name=a%26b%3Dc%2Bd%2541+%23%3F%C3%A9%F0%9F%98%80&email=" := by decide +kernel
  obtain ⟨-, -, arrives, isSent, -⟩ := filter_arrives defaultBase filter
  obtain ⟨message, sent⟩ :=
    Option.isSome_iff_exists.mp (isSent _ read unfiltered (by decide +kernel))
  obtain ⟨parts, exactly, looksFor⟩ := (arrives message sent).2 noQuestion
  exact ⟨noQuestion, message, sent, encoded ▸ parts, exactly, looksFor⟩

end Client

end TableServer
