/-
This file settles when the intake of orders does not depend on how the stream of a
connection is cut into reads. Each read is handed to the application as it is, which
parses it as one message. A read that is no whole message throws, and what throws
leaves the event loop, so that nothing is handed on after it. So the orders handed to
the books are those of the messages exactly when each message, up to the last one of
a symbol that has a book, comes back from a read of its own, and the symbol of each
message that does still finds its book, or none, when its text is freed.

A message and a read are compared without the white space around them. What two texts
at the beginning of one stream have to do with each other is from the library.
-/

import OrderForge.OrderForgeApp
import OrderForge.TcpReactor
import OrderForge.Trim

namespace OrderForge

/-! ### Reads -/

/-- What one call of `read` returns of a stream, and what handling it meets. -/
structure ReadResult where
  buffer : List UInt8
  surroundings : Surroundings
  nonempty : buffer ≠ []
  fits : buffer.length ≤ bufferSize

/-! ### What the parser promises -/

/-- The white space of JSON. -/
def isSpace (byte : UInt8) : Bool := byte = 0x20 ∨ byte = 0x09 ∨ byte = 0x0a ∨ byte = 0x0d

/-- A text without the white space around it. -/
abbrev core (text : List UInt8) : List UInt8 := Trim.trim isSpace text

theorem core_core (text : List UInt8) : core (core text) = core text := Trim.trim_trim text

/-- A text that begins an object, whose first byte is an opening brace. -/
def Opens (text : List UInt8) : Prop := (core text).head? = some 0x7b

instance (text : List UInt8) : Decidable (Opens text) := inferInstanceAs (Decidable (_ = _))

/-- The documented behaviour of `parse`: it accepts one complete value and throws otherwise. White
space around an object does not matter, an object is complete only at its end, and white space
alone is no value. -/
structure Libraries.OneValue (libraries : Libraries) : Prop where
  around : ∀ text, Opens text → libraries.parse text = libraries.parse (core text)
  complete : ∀ text rest, Opens text → (libraries.parse text).isSome →
    (libraries.parse (text ++ rest)).isSome → Trim.Blank isSpace rest
  blank : ∀ text, Trim.Blank isSpace text → libraries.parse text = none

/-- A well-formed order message. -/
structure Submission (libraries : Libraries) where
  text : List UInt8
  json : Json
  message : Message
  opens : Opens text
  parsed : libraries.parse text = some json
  carries : Carries json message

/-! ### The orders of a connection -/

/-- The orders handed to `add_order` when the reads of a connection are handled in turn, each with
the read it was in. -/
def OrderForgeApp.intake (libraries : Libraries) (app : OrderForgeApp) :
    List ReadResult → List (ReadResult × Order)
  | [] => []
  | read :: rest =>
    match handleEvent libraries read.surroundings app read.buffer with
    | .error _ => []
    | .ok (after, _) =>
      (handedOrder libraries read.surroundings app read.buffer).toList.map (Prod.mk read) ++
        after.intake libraries rest

namespace Submission

variable {libraries : Libraries}

/-- Whether the order of a message would go to a book. -/
def hasBook (app : OrderForgeApp) (submission : Submission libraries) : Bool :=
  app.hasBook submission.message.symbol

/-- Whether an order is that of a message, read with no more than white space around it. -/
structure Yields (submission : Submission libraries) (handed : ReadResult × Order) : Prop where
  text : core handed.1.buffer = core submission.text
  order : handed.2 = submission.message.order handed.1.surroundings.timestamp

end Submission

/-- Whether orders are those of messages, each once and in order. -/
def Delivered {libraries : Libraries} (orders : List (ReadResult × Order))
    (submissions : List (Submission libraries)) : Prop :=
  List.Forall₂ (fun handed submission => submission.Yields handed) orders submissions

/-! ### Handling one read -/

namespace OrderForgeApp

variable {libraries : Libraries} {surroundings : Surroundings} {app after : OrderForgeApp}
  {message : List UInt8}

/-- An order that is handed to a book is added to it once. -/
theorem addsOnce_of_handedOrder {order : Order}
    (handed : handedOrder libraries surroundings app message = some order) :
    ∃ book, app.orderBooks.find? order.symbol = some book ∧
      AddsOnce libraries surroundings app message book order := by
  rw [handedOrder] at handed
  split at handed
  next parsed result =>
    obtain ⟨book, known, rfl⟩ := Option.map_eq_some_iff.mp handed
    exact ⟨book, known, handleEvent_of_known result known⟩
  next => cases handed

/-- When no order is handed to a book, nothing changes. -/
theorem eq_of_handedOrder_eq_none {events : List Event}
    (nothing : handedOrder libraries surroundings app message = none)
    (handled : handleEvent libraries surroundings app message = .ok (after, events)) :
    after = app := by
  obtain ⟨result, parsed, rest⟩ := Libraries.bind_eq_ok handled
  obtain ⟨order, held, -⟩ := Libraries.bind_eq_ok rest
  cases result with
  | error error => cases held
  | value value =>
    cases held
    rw [handedOrder, parsed] at nothing
    rw [handleEvent_of_unknown parsed (Option.map_eq_none_iff.mp nothing)] at handled
    cases handled
    rfl

/-- Handling a message neither makes a book nor loses one. -/
theorem hasBook_of_handleEvent {events : List Event}
    (handled : handleEvent libraries surroundings app message = .ok (after, events)) :
    after.hasBook = app.hasBook := by
  funext symbol
  cases handed : handedOrder libraries surroundings app message with
  | none => rw [eq_of_handedOrder_eq_none handed handled]
  | some order =>
    obtain ⟨book, known, -, _, _, same, own, -, -, -, others⟩ := addsOnce_of_handedOrder handed
    rw [handled] at same
    cases same
    by_cases this : symbol = order.symbol
    · rw [hasBook, hasBook, this, own, known]
      rfl
    · rw [hasBook, hasBook, others _ this]

/-- A message that is an order does not throw. -/
theorem handleEvent_of_sentOrder {order : Order}
    (sent : sentOrder libraries surroundings.timestamp message = some order) :
    ∃ after events, handleEvent libraries surroundings app message = .ok (after, events) := by
  have parsed := parseOrder_of_sentOrder sent
  cases known : app.orderBooks.find? (surroundings.freed order.symbol) with
  | none => exact ⟨app, [], handleEvent_of_unknown parsed known⟩
  | some book =>
    obtain ⟨-, after, events, handled, -⟩ := handleEvent_of_known parsed known
    exact ⟨after, events, handled⟩

end OrderForgeApp

/-! ### A read and the message at the beginning of the stream -/

section Beginning

variable {libraries : Libraries} {buffer rest other : List UInt8}

theorem Opens.not_blank {text : List UInt8} (opens : Opens text) : ¬ Trim.Blank isSpace text := by
  intro nothing
  rw [Opens, core, Trim.trim_eq_nil.mpr nothing] at opens
  cases opens

theorem Opens.core {text : List UInt8} (opens : Opens text) : Opens (core text) := by
  rw [Opens, core_core]
  exact opens

/-- A text whose core has a beginning in common with that of an object begins an object. -/
theorem Opens.of_prefix {first second : List UInt8} (opens : Opens second)
    (some : ¬ Trim.Blank isSpace first)
    (common : OrderForge.core first <+: OrderForge.core second ∨
      OrderForge.core second <+: OrderForge.core first) : Opens first := by
  rcases common with ⟨more, split⟩ | ⟨more, split⟩
  · rw [Opens, ← split, List.head?_append_of_ne_nil _ (mt Trim.trim_eq_nil.mp some)] at opens
    exact opens
  · rw [Opens, ← split, List.head?_append_of_ne_nil _ (mt Trim.trim_eq_nil.mp opens.not_blank)]
    exact opens

/-- Of two objects that are complete, the core of one is no beginning of that of the other. -/
theorem Libraries.OneValue.eq_of_prefix (oneValue : libraries.OneValue) {first second : List UInt8}
    (firstOpens : Opens first) (secondOpens : Opens second)
    (firstParsed : (libraries.parse first).isSome) (secondParsed : (libraries.parse second).isSome)
    (shorter : core first <+: core second) : core first = core second := by
  obtain ⟨more, split⟩ := shorter
  rw [oneValue.around first firstOpens] at firstParsed
  rw [oneValue.around second secondOpens, ← split] at secondParsed
  have nothing := oneValue.complete (core first) more firstOpens.core firstParsed secondParsed
  rw [← split, Trim.eq_nil_of_blank split.symm nothing, List.append_nil]

/-- A read that is a value is the message at the beginning of the stream. -/
theorem Submission.core_eq_of_parse (submission : Submission libraries)
    (oneValue : libraries.OneValue)
    (same : (buffer ++ rest).dropWhile isSpace = (submission.text ++ other).dropWhile isSpace)
    (parsed : (libraries.parse buffer).isSome) : core buffer = core submission.text := by
  have some : ¬ Trim.Blank isSpace buffer := fun nothing => by
    rw [oneValue.blank buffer nothing] at parsed
    cases parsed
  have whole : (libraries.parse submission.text).isSome := by
    rw [submission.parsed]
    rfl
  have common := Trim.prefix_or_prefix some submission.opens.not_blank same
  have opens : Opens buffer := submission.opens.of_prefix some common
  rcases common with shorter | longer
  · exact oneValue.eq_of_prefix opens submission.opens parsed whole shorter
  · exact (oneValue.eq_of_prefix submission.opens opens whole parsed longer).symm

theorem Submission.parse_of_core_eq (submission : Submission libraries)
    (oneValue : libraries.OneValue) (same : core buffer = core submission.text) :
    libraries.parse buffer = some submission.json := by
  have opens : Opens buffer := by
    rw [Opens, same]
    exact submission.opens
  rw [oneValue.around buffer opens, same, ← oneValue.around _ submission.opens, submission.parsed]

/-- A read of no more than a message is its order while the text of the symbol is there. -/
theorem Submission.sentOrder_of_core_eq (submission : Submission libraries)
    (documented : libraries.Documented) (oneValue : libraries.OneValue)
    (same : core buffer = core submission.text) (timestamp : Int64) :
    OrderForgeApp.sentOrder libraries timestamp buffer =
      some (submission.message.order timestamp) := by
  rw [OrderForgeApp.sentOrder, submission.parse_of_core_eq oneValue same, Option.map_some,
    parseJson_of_carries documented submission.carries]

/-- Messages of one text name one symbol. -/
theorem Submission.symbol_eq_of_core_eq {first second : Submission libraries}
    (oneValue : libraries.OneValue) (same : core first.text = core second.text) :
    first.message.symbol = second.message.symbol := by
  have parsed := second.parse_of_core_eq oneValue same
  rw [first.parsed] at parsed
  have symbol := first.carries.symbol
  rw [Option.some.inj parsed, second.carries.symbol] at symbol
  exact (Option.some.inj symbol).symm

end Beginning

namespace OrderForgeApp

variable {libraries : Libraries} {app : OrderForgeApp} {read : ReadResult}
  {rest : List ReadResult}

/-- A read that is no value is the last one that is handled. -/
theorem intake_of_unparsed (unparsed : libraries.parse read.buffer = none) :
    intake libraries app (read :: rest) = [] := by
  rw [intake, handleEvent, parseOrder, unparsed]
  rfl

/-- A read that is a message is handled, and then the others are. -/
theorem intake_of_core_eq (documented : libraries.Documented) (oneValue : libraries.OneValue)
    (app : OrderForgeApp) (rest : List ReadResult) (submission : Submission libraries)
    (same : core read.buffer = core submission.text) :
    ∃ after, after.hasBook = app.hasBook ∧
      intake libraries app (read :: rest) =
        (handedOrder libraries read.surroundings app read.buffer).toList.map (Prod.mk read) ++
          intake libraries after rest := by
  obtain ⟨after, events, handled⟩ := handleEvent_of_sentOrder
    (submission.sentOrder_of_core_eq documented oneValue same read.surroundings.timestamp)
  refine ⟨after, hasBook_of_handleEvent handled, ?_⟩
  rw [intake, handled]

end OrderForgeApp

/-! ### The whole stream -/

section Stream

variable {libraries : Libraries}

/-- The messages up to the last one whose order would go to a book. -/
def upToLast (app : OrderForgeApp) (submissions : List (Submission libraries)) :
    List (Submission libraries) :=
  submissions.rdropWhile fun submission => !submission.hasBook app

/-- Only the books that there are matter. -/
theorem Submission.hasBook_congr {app after : OrderForgeApp} (same : after.hasBook = app.hasBook) :
    (hasBook after : Submission libraries → Bool) = hasBook app := by
  funext submission
  rw [hasBook, same, hasBook]

theorem upToLast_congr {app after : OrderForgeApp} (same : after.hasBook = app.hasBook)
    (submissions : List (Submission libraries)) :
    upToLast after submissions = upToLast app submissions := by
  have books := congrArg (fun has => submissions.rdropWhile fun submission => !has submission)
    (Submission.hasBook_congr same)
  exact books

theorem upToLast_cons (app : OrderForgeApp) (submission : Submission libraries)
    (rest : List (Submission libraries)) :
    upToLast app (submission :: rest) =
      if upToLast app rest = [] ∧ submission.hasBook app = false then []
      else submission :: upToLast app rest := by
  rw [upToLast, Trim.rdropWhile_cons]
  exact if_congr (by rw [Bool.not_eq_true', upToLast]) rfl rfl

/-- Whether each message, up to the last one whose order would go to a book, comes back from a read
of its own, but for the white space around it. -/
def Aligned (app : OrderForgeApp) (submissions : List (Submission libraries))
    (reads : List ReadResult) : Prop :=
  ((upToLast app submissions).map fun submission => core submission.text) <+:
    reads.map fun read => core read.buffer

section Step

variable {app : OrderForgeApp} {submission : Submission libraries}
  {rest : List (Submission libraries)} {read : ReadResult} {others : List ReadResult}

theorem aligned_of_eq_nil {submissions : List (Submission libraries)} {reads : List ReadResult}
    (nothing : upToLast app submissions = []) : Aligned app submissions reads := by
  rw [Aligned, nothing]
  exact List.nil_prefix

theorem aligned_nil_iff {submissions : List (Submission libraries)} :
    Aligned app submissions [] ↔ upToLast app submissions = [] := by
  rw [Aligned, List.map_nil, List.prefix_nil, List.map_eq_nil_iff]

theorem aligned_cons_of_eq (same : core read.buffer = core submission.text) :
    Aligned app (submission :: rest) (read :: others) ↔ Aligned app rest others := by
  by_cases nothing : upToLast app rest = [] ∧ submission.hasBook app = false
  · exact iff_of_true (aligned_of_eq_nil (by rw [upToLast_cons, if_pos nothing]))
      (aligned_of_eq_nil nothing.1)
  · rw [Aligned, upToLast_cons, if_neg nothing, List.map_cons, List.map_cons,
      List.cons_prefix_cons, and_iff_right same.symm, Aligned]

theorem aligned_cons_of_ne (other : core read.buffer ≠ core submission.text) :
    Aligned app (submission :: rest) (read :: others) ↔
      upToLast app (submission :: rest) = [] := by
  refine ⟨fun aligned => ?_, aligned_of_eq_nil⟩
  rw [Aligned, upToLast_cons] at aligned
  rw [upToLast_cons]
  split at aligned
  next unwanted => rw [if_pos unwanted]
  next wanted =>
    rw [List.map_cons, List.map_cons, List.cons_prefix_cons] at aligned
    exact absurd aligned.1.symm other

/-- No order is enough exactly when there is no book for any. -/
theorem delivered_nil_iff (app : OrderForgeApp) (submissions : List (Submission libraries)) :
    Delivered [] (submissions.filter (Submission.hasBook app)) ↔ upToLast app submissions = [] := by
  rw [Delivered, List.forall₂_nil_left_iff, List.filter_eq_nil_iff, upToLast,
    List.rdropWhile_eq_nil_iff]
  simp only [Bool.not_eq_true', Bool.not_eq_true]

end Step

/-- The messages that come back from reads of their own, up to the first one that does not, with
these reads. -/
def ownReads (submissions : List (Submission libraries)) (reads : List ReadResult) :
    List (Submission libraries × ReadResult) :=
  (submissions.zip reads).takeWhile fun own => core own.2.buffer = core own.1.text

/-- Whether the freed text of the symbol of each message that comes back from a read of its own
finds what the symbol names. -/
def Routed (app : OrderForgeApp) (submissions : List (Submission libraries))
    (reads : List ReadResult) : Prop :=
  ∀ own ∈ ownReads submissions reads, app.Finds own.2.surroundings.freed own.1.message.symbol

section Handed

variable {app : OrderForgeApp} {submission : Submission libraries}
  {rest : List (Submission libraries)} {read : ReadResult} {others : List ReadResult}

theorem ownReads_cons :
    ownReads (submission :: rest) (read :: others) =
      if core read.buffer = core submission.text then (submission, read) :: ownReads rest others
      else [] := by
  rw [ownReads, List.zip_cons_cons, List.takeWhile_cons]
  exact if_congr decide_eq_true_iff rfl rfl

theorem routed_cons_of_eq (same : core read.buffer = core submission.text) :
    Routed app (submission :: rest) (read :: others) ↔
      app.Finds read.surroundings.freed submission.message.symbol ∧ Routed app rest others := by
  rw [Routed, ownReads_cons, if_pos same]
  exact List.forall_mem_cons

theorem routed_cons_of_ne (other : core read.buffer ≠ core submission.text) :
    Routed app (submission :: rest) (read :: others) := by
  rw [Routed, ownReads_cons, if_neg other]
  exact nofun

theorem Routed.congr {after : OrderForgeApp} (same : after.hasBook = app.hasBook)
    (submissions : List (Submission libraries)) (reads : List ReadResult) :
    Routed after submissions reads ↔ Routed app submissions reads := by
  unfold Routed OrderForgeApp.Finds
  rw [same]

/-- When the orders are among those of the other messages, none is left for a message that has a
book, as all messages of its text have that book. -/
theorem not_delivered_of_few (oneValue : libraries.OneValue) (wanted : submission.hasBook app)
    {orders : List (ReadResult × Order)}
    (few : (orders.map fun handed => core handed.1.buffer).Sublist
      (rest.map fun submission => core submission.text)) :
    ¬ Delivered orders (submission :: rest.filter (Submission.hasBook app)) := by
  intro delivered
  have texts : orders.map (fun handed => core handed.1.buffer) =
      (submission :: rest.filter (Submission.hasBook app)).map
        fun submission => core submission.text := by
    rw [← List.forall₂_eq_eq_eq, List.forall₂_map_left_iff, List.forall₂_map_right_iff]
    exact delivered.imp fun _ _ yields => yields.text
  have counted := few.count_le (core submission.text)
  rw [texts, List.map_cons, List.count_cons_self] at counted
  simp only [List.count_eq_countP, List.countP_map, List.countP_filter] at counted
  refine Nat.not_succ_le_self _ (counted.trans (Nat.le_of_eq (List.countP_congr ?_)))
  intro other _
  rw [Function.comp_apply, beq_iff_eq, Bool.and_eq_true, beq_iff_eq]
  refine ⟨fun same => ⟨same, ?_⟩, And.left⟩
  rw [Submission.hasBook, Submission.symbol_eq_of_core_eq oneValue same]
  exact wanted

/-- The order that is handed on for a message, if any, is the one that is to be, exactly when the
freed text of the symbol finds what the symbol names. -/
theorem delivered_cons_iff (documented : libraries.Documented) (oneValue : libraries.OneValue)
    (same : core read.buffer = core submission.text) {orders : List (ReadResult × Order)}
    (few : (orders.map fun handed => core handed.1.buffer).Sublist
      (rest.map fun submission => core submission.text)) :
    Delivered ((OrderForgeApp.handedOrder libraries read.surroundings app read.buffer).toList.map
        (Prod.mk read) ++ orders) ((submission :: rest).filter (Submission.hasBook app)) ↔
      app.Finds read.surroundings.freed submission.message.symbol ∧
        Delivered orders (rest.filter (Submission.hasBook app)) := by
  have sent := submission.sentOrder_of_core_eq documented oneValue same
    read.surroundings.timestamp
  have finds : app.Finds read.surroundings.freed submission.message.symbol ↔
      OrderForgeApp.handedOrder libraries read.surroundings app read.buffer =
        if submission.hasBook app then
          some (submission.message.order read.surroundings.timestamp)
        else none := (OrderForgeApp.handedOrder_of_sentOrder sent).symm
  rw [finds]
  cases handed : OrderForgeApp.handedOrder libraries read.surroundings app read.buffer with
  | none =>
    cases wanted : submission.hasBook app with
    | true =>
      rw [List.filter_cons_of_pos wanted]
      exact iff_of_false (not_delivered_of_few oneValue wanted few) fun both =>
        (Option.some_ne_none _ both.1.symm).elim
    | false =>
      rw [List.filter_cons_of_neg (by rw [wanted]; decide)]
      exact (and_iff_right rfl).symm
  | some order =>
    cases wanted : submission.hasBook app with
    | true =>
      rw [List.filter_cons_of_pos wanted, if_pos rfl, Option.some_inj]
      exact List.forall₂_cons.trans (and_congr_left fun _ =>
        ⟨fun yields => yields.order, fun own => ⟨same, own⟩⟩)
    | false =>
      -- The order would be that of another message of the same text, which has no book either.
      rw [List.filter_cons_of_neg (by rw [wanted]; decide)]
      refine iff_of_false (fun delivered => ?_) fun both => Option.some_ne_none _ both.1
      obtain ⟨other, later, yields, -, split⟩ := List.forall₂_cons_left_iff.mp delivered
      have member : other ∈ rest.filter (Submission.hasBook app) := split ▸ List.mem_cons_self
      have has := (List.mem_filter.mp member).2
      rw [Submission.hasBook, Submission.symbol_eq_of_core_eq oneValue
        (yields.text.symm.trans same), ← Submission.hasBook, wanted] at has
      cases has

end Handed

/-- What is read and what was sent may differ in white space at the beginning, which is left of a
message that was read. -/
theorem delivered_iff_aligned (documented : libraries.Documented)
    (oneValue : libraries.OneValue) (app : OrderForgeApp)
    (submissions : List (Submission libraries)) (reads : List ReadResult)
    (stream : (reads.flatMap ReadResult.buffer).dropWhile isSpace =
      (submissions.flatMap Submission.text).dropWhile isSpace) :
    ((app.intake libraries reads).map fun handed => core handed.1.buffer).Sublist
        (submissions.map fun submission => core submission.text) ∧
      (Delivered (app.intake libraries reads) (submissions.filter (Submission.hasBook app)) ↔
        Aligned app submissions reads ∧ Routed app submissions reads) := by
  induction submissions generalizing app reads with
  | nil =>
    have unread : app.intake libraries reads = [] := by
      cases reads with
      | nil => rfl
      | cons read others =>
        refine OrderForgeApp.intake_of_unparsed (oneValue.blank _ fun byte member => ?_)
        exact Trim.dropWhile_eq_nil.mp stream byte (List.mem_append_left _ member)
    rw [unread, delivered_nil_iff]
    exact ⟨List.nil_sublist _, iff_of_true rfl ⟨aligned_of_eq_nil rfl, nofun⟩⟩
  | cons submission rest inductionHypothesis =>
    cases reads with
    | nil =>
      refine ⟨List.nil_sublist _, (delivered_nil_iff app _).trans ?_⟩
      exact aligned_nil_iff.symm.trans (and_iff_left nofun).symm
    | cons read others =>
      by_cases same : core read.buffer = core submission.text
      · obtain ⟨after, books, handled⟩ :=
          OrderForgeApp.intake_of_core_eq documented oneValue app others submission same
        obtain ⟨few, tail⟩ := inductionHypothesis after others
          (Trim.dropWhile_of_trim_eq submission.opens.not_blank same.symm stream.symm).symm
        rw [Submission.hasBook_congr books, Aligned, upToLast_congr books, Routed.congr books]
          at tail
        constructor
        · rw [handled, List.map_append, List.map_cons, ← List.singleton_append, ← same]
          refine List.Sublist.append ?_ few
          cases OrderForgeApp.handedOrder libraries read.surroundings app read.buffer with
          | none => exact List.nil_sublist _
          | some order => exact List.Sublist.refl _
        · rw [handled, delivered_cons_iff documented oneValue same few, aligned_cons_of_eq same,
            routed_cons_of_eq same, tail, Aligned]
          exact and_left_comm
      · have unparsed : libraries.parse read.buffer = none := by
          by_contra parsed
          exact same (submission.core_eq_of_parse oneValue stream
            (Option.isSome_iff_ne_none.mpr parsed))
        rw [OrderForgeApp.intake_of_unparsed unparsed, delivered_nil_iff, aligned_cons_of_ne same]
        exact ⟨List.nil_sublist _, (and_iff_left (routed_cons_of_ne same)).symm⟩

/-- The orders handed to the books are those of the messages that have a book, each once and in
order, exactly when the stream is cut between the messages and the freed texts of the symbols find
what the symbols name. -/
theorem intake_iff_aligned (documented : libraries.Documented) (oneValue : libraries.OneValue)
    (app : OrderForgeApp) (submissions : List (Submission libraries)) (reads : List ReadResult)
    (stream : reads.flatMap ReadResult.buffer = submissions.flatMap Submission.text) :
    Delivered (app.intake libraries reads) (submissions.filter (Submission.hasBook app)) ↔
      Aligned app submissions reads ∧ Routed app submissions reads :=
  (delivered_iff_aligned documented oneValue app submissions reads
    (congrArg (List.dropWhile isSpace) stream)).2

end Stream

/-! ### Samples -/

/-- Libraries that can parse one message. -/
def sampleParser : Libraries :=
  { sampleLibraries [] with
    parse := fun text => if core text = core sampleText then some sampleJson else none }

theorem sampleParser_documented : sampleParser.Documented where
  contains := rfl
  memberAt := rfl
  getString := rfl
  getDouble := rfl
  getUnsigned := (sampleLibraries_documented []).getUnsigned
  castSide := (sampleLibraries_documented []).castSide
  castType := (sampleLibraries_documented []).castType
  castStatus := (sampleLibraries_documented []).castStatus

theorem sampleParser_parse_isSome {text : List UInt8} :
    (sampleParser.parse text).isSome ↔ core text = core sampleText := by
  show (if core text = core sampleText then some sampleJson else none).isSome ↔ _
  split
  next same => exact iff_of_true rfl same
  next other => exact iff_of_false Bool.false_ne_true other

theorem sampleText_opens : Opens sampleText := by decide +kernel

theorem sampleParser_oneValue : sampleParser.OneValue where
  around text _ := by
    show (if core text = _ then _ else _) = if core (core text) = _ then _ else _
    rw [core_core]
  complete text rest opens parsed both := by
    rw [sampleParser_parse_isSome] at parsed both
    exact Trim.blank_of_trim_eq opens.not_blank (both.trans parsed.symm)
  blank text nothing := by
    refine Option.not_isSome_iff_eq_none.mp fun parsed => sampleText_opens.not_blank ?_
    rw [sampleParser_parse_isSome] at parsed
    exact Trim.trim_eq_nil.mp (parsed.symm.trans (Trim.trim_eq_nil.mpr nothing))

def sampleSubmission : Submission sampleParser where
  text := sampleText
  json := sampleJson
  message := sampleMessage
  opens := sampleText_opens
  parsed := if_pos rfl
  carries := sampleJson_carries

/-- A read of one message. -/
def sampleRead : ReadResult where
  buffer := sampleText
  surroundings := .intact
  nonempty := by decide +kernel
  fits := by decide +kernel

theorem sample_intake :
    Delivered (OrderForgeApp.sampleApp.intake sampleParser [sampleRead, sampleRead])
      ([sampleSubmission, sampleSubmission].filter
        (Submission.hasBook OrderForgeApp.sampleApp)) := by
  refine (intake_iff_aligned sampleParser_documented sampleParser_oneValue OrderForgeApp.sampleApp
    [sampleSubmission, sampleSubmission] [sampleRead, sampleRead] rfl).mpr
      ⟨(List.rdropWhile_prefix _ _).map _, fun own member => ?_⟩
  have inReads := (List.of_mem_zip ((List.takeWhile_prefix _).subset member)).2
  have same : own.2 = sampleRead := List.eq_of_mem_replicate (n := 2) inReads
  rw [same]
  exact OrderForgeApp.finds_intact _ _

/-- A read of two messages sent back to back. -/
def sampleReadBoth : ReadResult where
  buffer := sampleText ++ sampleText
  surroundings := .intact
  nonempty := by decide +kernel
  fits := by decide +kernel

/-- Of two messages in one read nothing is handed on. -/
theorem intake_depends_on_segmentation :
    ¬ ∀ libraries : Libraries, libraries.Documented → libraries.OneValue →
      ∀ (app : OrderForgeApp) (submissions : List (Submission libraries))
        (reads : List ReadResult),
        reads.flatMap ReadResult.buffer = submissions.flatMap Submission.text →
        Delivered (app.intake libraries reads) (submissions.filter (Submission.hasBook app)) := by
  intro delivered
  have both := delivered sampleParser sampleParser_documented sampleParser_oneValue
    OrderForgeApp.sampleApp [sampleSubmission, sampleSubmission] [sampleReadBoth]
      (List.append_assoc _ _ _)
  have unparsed : sampleParser.parse sampleReadBoth.buffer = none := by
    refine Option.not_isSome_iff_eq_none.mp fun parsed => sampleText_opens.not_blank ?_
    exact sampleParser_oneValue.complete sampleText sampleText sampleText_opens
      (sampleParser_parse_isSome.mpr rfl) parsed
  rw [OrderForgeApp.intake_of_unparsed unparsed] at both
  cases both

end OrderForge
