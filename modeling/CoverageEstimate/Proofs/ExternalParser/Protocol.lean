/-
# The protocol of external parsers

An external parser answers with an object, and the names of its members decide what the answer is:
with a member `error` it is a failure, whatever else the object holds, and without one it is the
facts that the other members give.  Neither depends on the order of the members, on members with
other names, or on how the document is written.
-/
import CoverageEstimate.ExternalParser.Run
import CoverageEstimate.Proofs.Json.Reading
import CoverageEstimate.Proofs.Json.Writing
import CoverageEstimate.Proofs.Report.Values
import CoverageEstimate.Proofs.Text.Utf8

namespace CoverageEstimate

open Json

namespace ParserOutput

/-- The members of the facts, each definition in the form of its documents. -/
def toMembers (o : ParserOutput) : List (String × Value) :=
  [("functions", .list (o.functions.map FunctionDefinition.toValue)),
    ("testCalls", .list (o.testCalls.map .text)),
    ("testMentions", .list (o.testMentions.map .text))]

end ParserOutput

namespace ParserResponse

/-- The names of the members that a response is read from. -/
def memberNames : List String := ["functions", "testCalls", "testMentions", "error"]

/-- The bytes are a document of an object with the members, which is not nested too far. -/
def IsObject (members : List (String × Value)) (bytes : List UInt8) : Prop :=
  (Value.object members).depth ≤ greatestDepth ∧
    ∃ document, IsDocument (.object members) document ∧
      bytes = Text.bytesOf (String.ofList document)

variable {members others : List (String × Value)} {bytes : List UInt8}

/-- A document of an object is the response that the object is. -/
lemma ofBytes_of_isObject (h : IsObject members bytes) {response : ParserResponse}
    (hresponse : ofValue? (.object members) = some response) : ofBytes bytes = .ok response := by
  obtain ⟨hdeep, document, hdocument, rfl⟩ := h
  have hpieces : Text.pieces (Text.bytesOf (String.ofList document)) = Json.pieces document := by
    rw [Text.pieces_bytesOf, Text.piecesOf, String.toList_ofList, Json.pieces]
  have hread := readDocument_of_isDocument hdocument hdeep
  simp only [ofBytes, hpieces, hread, hresponse]

/-! ## Failures -/

/-- The field of a failure. -/
def failureFields : Fields := .field "error" .required .text .none

lemma has_failureFields {name : String} : failureFields.has name = true ↔ name = "error" := by
  rw [failureFields, Fields.has, Fields.has, Bool.or_false, beq_iff_eq, eq_comm]

/-- The only member `error` of an object is its failure. -/
lemma failureOf?_object {message : String} (h : members.Perm (("error", .text message) :: others))
    (only : "error" ∉ others.map (·.1)) : failureOf? (.object members) = some message := by
  have hothers : ∀ m ∈ others, failureFields.has m.1 = false := by
    intro m hm
    refine Bool.eq_false_iff.mpr fun hhas => only ?_
    rw [← has_failureFields.mp hhas]
    exact List.mem_map_of_mem hm
  obtain ⟨written, htake, -, hmember⟩ := @takeMembers_of_perm failureFields members
    [("error", .text message)] others h (by simp [has_failureFields]) hothers (by simp)
    (List.forall_mem_singleton.mpr fun read hread => ⟨.text message, by
      obtain rfl := Option.some.inj hread
      rfl⟩)
  have herror : Value.member? "error" written = some (.text message) :=
    hmember _ List.mem_cons_self _ rfl _ rfl
  have hcomplete : failureFields.complete written = .ok [("error", .text message)] := by
    simp only [failureFields, Fields.complete, herror]
    rfl
  have hvalue : failureShape.normalize (.object members) =
      .ok (.object [("error", .text message)]) := by
    rw [failureShape, ← failureFields, normalize_record, htake, Except.bind, hcomplete]
    rfl
  rw [failureOf?, hvalue]

/-- An object without a member `error` is no failure. -/
lemma failureOf?_eq_none (h : "error" ∉ members.map (·.1)) :
    failureOf? (.object members) = none := by
  have hothers : ∀ m ∈ members, failureFields.has m.1 = false := by
    intro m hm
    refine Bool.eq_false_iff.mpr fun hhas => h ?_
    rw [← has_failureFields.mp hhas]
    exact List.mem_map_of_mem hm
  obtain ⟨written, htake, hnames, -⟩ := @takeMembers_of_perm failureFields members [] members
    (.refl _) (by simp) hothers (by simp) (by simp)
  obtain rfl : written = [] := List.map_eq_nil_iff.mp (List.perm_nil.mp hnames)
  have hvalue : failureShape.normalize (.object members) = .error (.missingMember "error") := by
    rw [failureShape, ← failureFields, normalize_record, htake]
    rfl
  rw [failureOf?, hvalue]

end ParserResponse

/-! ## Facts -/

namespace ParserOutput

/-- The fields of the facts. -/
def fields : Fields :=
  .field "functions" .required (.list FunctionDefinition.shape) <|
    .field "testCalls" (.default (.list [])) (.list .text) <|
    .field "testMentions" (.default (.list [])) (.list .text) .none

lemma has_fields {name : String} :
    fields.has name = true ↔ name ∈ ["functions", "testCalls", "testMentions"] := by
  simp only [fields, Fields.has, Bool.or_false, Bool.or_eq_true, beq_iff_eq, List.mem_cons,
    List.not_mem_nil, or_false, @eq_comm _ name]

lemma normalize_texts (texts : List String) :
    ∃ ws, (Shape.list .text).normalize (.list (texts.map .text)) = .ok (.list ws) ∧
      ws.map textOf = texts :=
  normalize_list fun s _ => ⟨.text s, rfl, rfl⟩

/-- Facts are read back from an object that holds their members, wherever these stand in it. -/
lemma normalize_object (facts : ParserOutput) {members others : List (String × Value)}
    (h : members.Perm (facts.toMembers ++ others))
    (unknown : ∀ m ∈ others, m.1 ∉ ["functions", "testCalls", "testMentions"]) :
    ∃ w, shape.normalize (.object members) = .ok w ∧ ofValue w = facts := by
  obtain ⟨definitions, hdefinitions, hds⟩ :=
    normalize_list fun d (_ : d ∈ facts.functions) => d.normalize_toValue
  obtain ⟨calls, hcalls, hcs⟩ := normalize_texts facts.testCalls
  obtain ⟨mentions, hmentions, hms⟩ := normalize_texts facts.testMentions
  have hothers : ∀ m ∈ others, fields.has m.1 = false := fun m hm =>
    Bool.eq_false_iff.mpr fun hhas => unknown m hm (has_fields.mp hhas)
  have hreads : ∀ m ∈ facts.toMembers, ∀ read ∈ fields.normalize? m.1, ∃ w, read m.2 = .ok w := by
    simp only [toMembers, List.forall_mem_cons]
    refine ⟨?_, ?_, ?_, by simp⟩
    · intro read hread
      obtain rfl := Option.some.inj hread
      exact ⟨_, hdefinitions⟩
    · intro read hread
      obtain rfl := Option.some.inj hread
      exact ⟨_, hcalls⟩
    · intro read hread
      obtain rfl := Option.some.inj hread
      exact ⟨_, hmentions⟩
  obtain ⟨written, htake, -, hmember⟩ := takeMembers_of_perm h (by simp [toMembers, has_fields])
    hothers (by simp [toMembers]) hreads
  have hfunctions : Value.member? "functions" written = some (.list definitions) :=
    hmember _ List.mem_cons_self _ rfl _ hdefinitions
  have htestCalls : Value.member? "testCalls" written = some (.list calls) :=
    hmember ("testCalls", .list (facts.testCalls.map .text)) (by simp [toMembers]) _ rfl _ hcalls
  have htestMentions : Value.member? "testMentions" written = some (.list mentions) :=
    hmember ("testMentions", .list (facts.testMentions.map .text)) (by simp [toMembers]) _ rfl _
      hmentions
  have hcomplete : fields.complete written = .ok [("functions", .list definitions),
      ("testCalls", .list calls), ("testMentions", .list mentions)] := by
    simp only [fields, Fields.complete, hfunctions, htestCalls, htestMentions]
    rfl
  have hvalue : shape.normalize (.object members) = .ok (.object [("functions", .list definitions),
      ("testCalls", .list calls), ("testMentions", .list mentions)]) := by
    rw [shape, ← fields, normalize_record, htake, Except.bind, hcomplete]
    rfl
  exact ⟨_, hvalue, by rw [ofValue, itemsOf, itemsOf, itemsOf, hds, hcs, hms]⟩

end ParserOutput

/-! ## Responses -/

namespace ExternalParser

open ParserResponse

/-- **Responses.**  An object with the members of some facts, in any order and with any members of
other names among them, is decoded to these facts, whose definitions are those with spans that can
exist and whose signals are the given strings; an object with a member `error` is decoded to the
failure of that message, whatever else it holds. -/
theorem decode_object (path errors : String) {members : List (String × Value)}
    {output : List UInt8} (h : IsObject members output) :
    (∀ (facts : ParserOutput) (others : List (String × Value)),
      members.Perm (facts.toMembers ++ others) → (∀ m ∈ others, m.1 ∉ memberNames) →
      ∃ decoded, decode path output errors = .ok decoded ∧
        decoded.validFunctions =
          facts.functions.filter (fun d => decide (1 ≤ d.startLine ∧ d.startLine ≤ d.endLine)) ∧
        (∀ name, name ∈ decoded.signals.calls ↔ name ∈ facts.testCalls) ∧
        (∀ name, name ∈ decoded.signals.mentions ↔ name ∈ facts.testMentions)) ∧
    ∀ (message : String) (others : List (String × Value)),
      members.Perm (("error", .text message) :: others) → "error" ∉ others.map (·.1) →
      decode path output errors = .error (.parserFailed path message errors) := by
  constructor
  · intro facts others hmembers hunknown
    have hnoError : "error" ∉ members.map (·.1) := by
      intro herror
      obtain ⟨m, hm, hname⟩ := List.mem_map.mp herror
      rcases List.mem_append.mp (hmembers.mem_iff.mp hm) with hm | hm
      · simp only [ParserOutput.toMembers, List.mem_cons, List.not_mem_nil, or_false] at hm
        rcases hm with rfl | rfl | rfl <;> simp at hname
      · exact hunknown m hm (by simp [memberNames, hname])
    obtain ⟨w, hw, hfacts⟩ := facts.normalize_object hmembers fun m hm hname =>
      hunknown m hm (List.mem_append_left ["error"] hname)
    have hresponse : ofValue? (.object members) = some (.success facts) := by
      simp only [ofValue?, failureOf?_eq_none hnoError, hw, hfacts]
    refine ⟨facts, ?_, ?_, fun _ => NameSet.mem_ofList, fun _ => NameSet.mem_ofList⟩
    · rw [decode, ofBytes_of_isObject h hresponse]
    · simp only [ParserOutput.validFunctions, FunctionDefinition.hasValidSpan, Bool.decide_and]
  · intro message others hmembers honly
    have hresponse : ofValue? (.object members) = some (.failure message) := by
      simp only [ofValue?, failureOf?_object hmembers honly]
    rw [decode, ofBytes_of_isObject h hresponse]

/-- The facts of a parser that gives two definitions, one of which ends before it starts. -/
def exampleFacts : ParserOutput :=
  ⟨[⟨"ok", 2, 4, "void ok()", .function, none⟩,
      ⟨"backwards", 9, 3, "void backwards()", .method, some "Clock"⟩],
    ["ok"], ["keeps its blanks"]⟩

/-- The members of the facts from the last one to the first one, behind one of another name. -/
def exampleMembers : List (String × Value) :=
  ("version", .null) :: exampleFacts.toMembers.reverse

lemma isWritable_exampleMembers {m : String × Value} (h : m ∈ exampleMembers) : m.2.IsWritable := by
  have hdefinitions : ∀ v ∈ exampleFacts.functions.map FunctionDefinition.toValue,
      v.IsWritable := by
    refine List.forall_mem_map.mpr fun d hd => ?_
    simp only [exampleFacts, List.mem_cons, List.not_mem_nil, or_false] at hd
    rcases hd with rfl | rfl <;> exact FunctionDefinition.isWritable_toValue (by decide) (by decide)
  have htexts {texts : List String} : ∀ v ∈ texts.map Value.text, v.IsWritable :=
    List.forall_mem_map.mpr fun s _ => .text s
  simp only [exampleMembers, ParserOutput.toMembers, List.mem_cons, List.mem_reverse,
    List.not_mem_nil, or_false] at h
  rcases h with rfl | rfl | rfl | rfl
  · exact .null
  · exact .list hdefinitions
  · exact .list htexts
  · exact .list htexts

theorem decode_exampleMembers :
    (∃ decoded,
      decode "a.dart" (Text.bytesOf (Value.object exampleMembers).print) "" = .ok decoded ∧
      decoded.validFunctions = [⟨"ok", 2, 4, "void ok()", .function, none⟩] ∧
      (∀ name, name ∈ decoded.signals.calls ↔ name ∈ ["ok"]) ∧
      ∀ name, name ∈ decoded.signals.mentions ↔ name ∈ ["keeps its blanks"]) ∧
    decode "a.dart"
        (Text.bytesOf (Value.object (("error", .text "no Dart") :: exampleMembers)).print) "" =
      .error (.parserFailed "a.dart" "no Dart" "") := by
  have hfacts : IsObject exampleMembers (Text.bytesOf (Value.object exampleMembers).print) :=
    ⟨by decide, _, Value.isDocument_print (.object fun _ => isWritable_exampleMembers), by simp⟩
  have hfailure : IsObject (("error", .text "no Dart") :: exampleMembers)
      (Text.bytesOf (Value.object (("error", .text "no Dart") :: exampleMembers)).print) :=
    ⟨by decide, _, Value.isDocument_print (.object (List.forall_mem_cons.mpr
      ⟨.text _, fun _ => isWritable_exampleMembers⟩)), by simp⟩
  constructor
  · exact (decode_object "a.dart" "" hfacts).1 exampleFacts [("version", .null)]
      (List.perm_append_comm.trans ((List.reverse_perm _).symm.cons _)).symm (by decide)
  · exact (decode_object "a.dart" "" hfailure).2 "no Dart" exampleMembers (.refl _) (by decide)

end ExternalParser

end CoverageEstimate
