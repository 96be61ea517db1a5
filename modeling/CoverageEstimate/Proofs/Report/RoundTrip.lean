/-
# Reports are read back

The document of a report is read back as the report itself, whatever its strings hold, as long as
its numbers fit into the types that documents have for them.  For each type this takes four things
(`ReadsBack`): its value can be written, it is written the way its shape reads it, it is not nested
too far, and what is read from its normal form is what was written.

The reports that an analysis makes are among these (`Report.fits_ofCounts`).
-/
import CoverageEstimate.Proofs.Json.Shapes
import CoverageEstimate.Proofs.Report.Percentages
import CoverageEstimate.Proofs.Report.Values

namespace CoverageEstimate

open Json

/-- The value is written in such a way that the shape reads it back as `a`. -/
structure ReadsBack {α : Type} (shape : Shape) (back : Value → α) (v : Value) (depth : Nat)
    (a : α) : Prop where
  writable : v.IsWritable
  direct : shape.IsDirect v
  shallow : v.depth ≤ depth
  normal : ∃ w, shape.normalize v = .ok w ∧ back w = a

namespace ReadsBack

variable {α : Type} {shape : Shape} {back : Value → α}

/-- Items that are read back one by one are read back as a list. -/
lemma list {write : α → Value} {depth : Nat} {as : List α}
    (h : ∀ a ∈ as, ReadsBack shape back (write a) depth a) :
    ReadsBack (.list shape) (fun v => (itemsOf v).map back) (.list (as.map write)) (depth + 1)
      as where
  writable := .list (List.forall_mem_map.mpr fun a ha => (h a ha).writable)
  direct := by
    rw [Shape.IsDirect]
    exact List.forall_mem_map.mpr fun a ha => (h a ha).direct
  shallow := by
    rw [Value.depth]
    refine Nat.succ_le_succ (Value.itemsDepth_le ?_)
    exact List.forall_mem_map.mpr fun a ha => (h a ha).shallow
  normal := by
    obtain ⟨ws, hws, hback⟩ := normalize_list fun a ha => (h a ha).normal
    exact ⟨.list ws, hws, hback⟩

/-- What is read back from its value is read back from its document. -/
lemma document {v : Value} {depth : Nat} {a : α} (h : ReadsBack shape back v depth a)
    (deep : depth ≤ greatestDepth) :
    (shape.readDocument (Text.piecesOf v.print)).map back = .ok a := by
  obtain ⟨w, hw, rfl⟩ := h.normal
  have hread := Shape.readDocument_of_isDocument (Value.isDocument_print h.writable) h.direct hw
    (Nat.le_trans h.shallow deep)
  rw [Text.piecesOf, ← Json.pieces, hread]
  rfl

end ReadsBack

/-! ## Functions -/

namespace FunctionCoverage

/-- The lines fit into 64 bits and the score into 32. -/
structure Fits (f : FunctionCoverage) : Prop where
  startLine : f.startLine < 2 ^ 64
  endLine : f.endLine < 2 ^ 64
  score : -2 ^ 31 ≤ f.evidence.score ∧ f.evidence.score < 2 ^ 31

/-- The members of evidence stand before `covered` where they are written, and behind the fields of
the function itself where they have been read. -/
lemma normalize_toValue {f : FunctionCoverage} (h : f.Fits) :
    shape.normalize f.toValue = .ok (.object [("functionName", .text f.functionName),
      ("startLine", naturalValue f.startLine), ("endLine", naturalValue f.endLine),
      ("type", .text f.kind.word), ("className", optionalText f.className),
      ("covered", .flag f.covered), ("isCalled", .flag f.evidence.isCalled),
      ("isMentioned", .flag f.evidence.isMentioned),
      ("isTextMatch", .flag f.evidence.isTextMatch),
      ("score", integerValue f.evidence.score)]) := by
  have hscore := normalize_integerValue h.score.1 h.score.2
  obtain ⟨name, startLine, endLine, kind, owner, evidence, covered⟩ := f
  cases owner <;>
    simp [shape, toValue, Shape.normalize, takeMembers, Fields.normalize?, Evidence.toMembers,
      Evidence.fields, Fields.has, Fields.complete, Value.member?, hscore, bind, Except.bind, pure,
      Except.pure, naturalValue, asNatural, asChoice_word, optionalText]

lemma readsBack {f : FunctionCoverage} (h : f.Fits) : ReadsBack shape ofValue f.toValue 1 f where
  writable := by
    have hevidence : ∀ m ∈ f.evidence.toMembers, m.2.IsWritable := by
      simp only [Evidence.toMembers, List.forall_mem_cons, List.not_mem_nil, false_imp_iff,
        implies_true, and_true]
      exact ⟨.flag _, .flag _, .flag _, isWritable_integerValue h.score.1 h.score.2⟩
    have howner : ∀ m ∈ f.className.toList.map fun owner => ("className", Value.text owner),
        m.2.IsWritable := List.forall_mem_map.mpr fun _ _ => .text _
    refine .object (List.forall_mem_append.mpr ⟨List.forall_mem_append.mpr
      ⟨List.forall_mem_append.mpr ⟨?_, howner⟩, hevidence⟩,
      List.forall_mem_singleton.mpr (.flag _)⟩)
    simp only [List.forall_mem_cons, List.not_mem_nil, false_imp_iff, implies_true, and_true]
    exact ⟨.text _, isWritable_naturalValue h.startLine, isWritable_naturalValue h.endLine,
      .text _⟩
  direct := by
    obtain ⟨name, startLine, endLine, kind, owner, evidence, covered⟩ := f
    cases owner <;>
      simp [shape, toValue, Shape.IsDirect, Fields.IsDirect, Evidence.toMembers, Evidence.fields]
  shallow := by
    obtain ⟨name, startLine, endLine, kind, owner, ⟨called, mentioned, found, score⟩, covered⟩ := f
    cases owner <;> cases score <;> exact Nat.le_refl 1
  normal := by
    refine ⟨_, normalize_toValue h, ?_⟩
    rw [ofValue, kindOf_word, integerOf_integerValue, textOf?_optionalText]
    rfl

end FunctionCoverage

/-! ## Files -/

namespace FileCoverage

/-- The functions fit, and the percentage is one. -/
structure Fits (f : FileCoverage) : Prop where
  functions : ∀ g ∈ f.functions, g.Fits
  percentage : IsPercentage f.coveragePercentage

lemma readsBack {f : FileCoverage} (h : f.Fits) : ReadsBack shape ofValue f.toValue 3 f := by
  obtain ⟨hwritable, hdirect, hshallow, ws, hws, hback⟩ :=
    ReadsBack.list fun g hg => FunctionCoverage.readsBack (h.functions g hg)
  have hpaired : (Shape.optional .text).IsDirect (optionalText f.pairedTestFile) ∧
      (Shape.optional .text).normalize (optionalText f.pairedTestFile) =
        .ok (optionalText f.pairedTestFile) ∧ (optionalText f.pairedTestFile).depth ≤ 2 := by
    cases f.pairedTestFile
    · exact ⟨fun hnull => absurd rfl hnull, rfl, Nat.zero_le 2⟩
    · exact ⟨fun _ => trivial, rfl, Nat.zero_le 2⟩
  have hmembers : shape.IsDirect f.toValue ∧ shape.normalize f.toValue =
      .ok (.object [("file", .text f.file), ("pairedTestFile", optionalText f.pairedTestFile),
        ("functions", ws), ("coveragePercentage", realValue f.coveragePercentage),
        ("language", .text f.language)]) := by
    refine Fields.InOrder.record ?_ (by simp) _
    exact .field trivial rfl <| .field hpaired.1 hpaired.2.1 <| .field hdirect hws <|
      .field trivial rfl <| .field trivial rfl .none
  refine ⟨.object ?_, hmembers.1, ?_, _, hmembers.2, ?_⟩
  · simp only [List.forall_mem_cons, List.not_mem_nil, false_imp_iff, implies_true, and_true]
    exact ⟨.text _, isWritable_optionalText _, hwritable,
      .number (Percentage.isWritable h.percentage), .text _⟩
  · refine Nat.succ_le_succ (Value.membersDepth_le ?_)
    simp only [List.forall_mem_cons, List.not_mem_nil, false_imp_iff, implies_true, and_true]
    exact ⟨Nat.zero_le 2, hpaired.2.2, hshallow, Nat.zero_le 2, Nat.zero_le 2⟩
  · rw [ofValue, hback, textOf?_optionalText]
    rfl

end FileCoverage

/-! ## Reports -/

/-- The counts fit into 64 bits, and the percentage is one. -/
structure Summary.Fits (s : Summary) : Prop where
  totalSourceFiles : s.totalSourceFiles < 2 ^ 64
  analyzedFiles : s.analyzedFiles < 2 ^ 64
  testFiles : s.testFiles < 2 ^ 64
  percentage : IsPercentage s.overallCoveragePercentage
  totalFunctions : s.totalFunctions < 2 ^ 64
  coveredFunctions : s.coveredFunctions < 2 ^ 64

lemma Summary.readsBack {s : Summary} (h : s.Fits) : ReadsBack shape ofValue s.toValue 1 s := by
  have hmembers : shape.IsDirect s.toValue ∧ shape.normalize s.toValue = .ok s.toValue := by
    refine Fields.InOrder.record ?_ (by simp) _
    exact .field trivial rfl <| .field trivial rfl <| .field trivial rfl <| .field trivial rfl <|
      .field trivial rfl <| .field trivial rfl .none
  refine ⟨.object ?_, hmembers.1, Nat.le_refl 1, _, hmembers.2, rfl⟩
  simp only [List.forall_mem_cons, List.not_mem_nil, false_imp_iff, implies_true, and_true]
  exact ⟨isWritable_naturalValue h.totalSourceFiles, isWritable_naturalValue h.analyzedFiles,
    isWritable_naturalValue h.testFiles, .number (Percentage.isWritable h.percentage),
    isWritable_naturalValue h.totalFunctions, isWritable_naturalValue h.coveredFunctions⟩

namespace Report

/-- Every number of the report fits into the type that documents have for it. -/
structure Fits (r : Report) : Prop where
  summary : r.summary.Fits
  details : ∀ f ∈ r.details, f.Fits

/-! ### Reports of an analysis -/

lemma totalOver_le {count larger : FileCoverage → Nat} (h : ∀ f, count f ≤ larger f)
    (details : List FileCoverage) : totalOver count details ≤ totalOver larger details := by
  induction details with
  | nil => exact Nat.le_refl 0
  | cons f rest ih => exact Nat.add_le_add (h f) ih

lemma le_totalOver (count : FileCoverage → Nat) {details : List FileCoverage} {f : FileCoverage}
    (h : f ∈ details) : count f ≤ totalOver count details := by
  induction details with
  | nil => exact absurd h List.not_mem_nil
  | cons g rest ih =>
    rw [totalOver]
    rcases List.mem_cons.mp h with rfl | h
    · exact Nat.le_add_right _ _
    · exact Nat.le_trans (ih h) (Nat.le_add_left _ _)

/-- **Reports of an analysis** are of that kind: their percentages are made from their functions,
and their totals are far below the limits. -/
theorem fits_ofCounts {sourceFiles testFiles : Nat} {details : List FileCoverage}
    (sources : sourceFiles < 2 ^ 64) (tests : testFiles < 2 ^ 64)
    (files : 100 * details.length < 2 ^ 53)
    (total : totalOver (fun f => f.functions.length) details < 2 ^ 53)
    (functions : ∀ f ∈ details, ∀ g ∈ f.functions, g.Fits)
    (percentages : ∀ f ∈ details, f.coveragePercentage = coveragePercentage f.functions) :
    (ofCounts sourceFiles testFiles details).Fits := by
  have hpercentage : ∀ f ∈ details, IsPercentage f.coveragePercentage := by
    intro f hf
    have hlength := le_totalOver (fun f => f.functions.length) hf
    rw [percentages f hf]
    exact isPercentage_coveragePercentage (Nat.lt_of_le_of_lt hlength total)
  have hcovered : totalOver (fun f => coveredCount f.functions) details ≤
      totalOver (fun f => f.functions.length) details :=
    totalOver_le (fun _ => List.countP_le_length) details
  have hanalyzed : details.length < 2 ^ 64 := by omega
  refine ⟨⟨sources, hanalyzed, tests, ?_, ?_, ?_⟩,
    fun f hf => ⟨functions f hf, hpercentage f hf⟩⟩
  · refine isPercentage_meanPercentage (List.forall_mem_map.mpr hpercentage) ?_
    rwa [List.length_map]
  · exact Nat.lt_trans total (by decide)
  · exact Nat.lt_of_le_of_lt hcovered (by omega)

/-! ### Reading back -/

lemma readsBack {r : Report} (h : r.Fits) : ReadsBack shape ofValue r.toValue 5 r := by
  obtain ⟨htotals, hdirectTotals, hshallowTotals, w, hw, hsummary⟩ := Summary.readsBack h.summary
  obtain ⟨hwritable, hdirect, hshallow, ws, hws, hback⟩ :=
    ReadsBack.list fun f hf => FileCoverage.readsBack (h.details f hf)
  have hmembers : shape.IsDirect r.toValue ∧
      shape.normalize r.toValue = .ok (.object [("summary", w), ("details", ws)]) :=
    Fields.InOrder.record (.field hdirectTotals hw <| .field hdirect hws .none) (by simp) _
  refine ⟨.object ?_, hmembers.1, ?_, _, hmembers.2, ?_⟩
  · simp only [List.forall_mem_cons, List.not_mem_nil, false_imp_iff, implies_true, and_true]
    exact ⟨htotals, hwritable⟩
  · refine Nat.succ_le_succ (Value.membersDepth_le ?_)
    simp only [List.forall_mem_cons, List.not_mem_nil, false_imp_iff, implies_true, and_true]
    exact ⟨Nat.le_trans hshallowTotals (by decide), hshallow⟩
  · rw [ofValue, hback, hsummary]

/-- **Round trip.**  The document of a report whose numbers fit is read back as the report, so that
no two such reports have the same document. -/
theorem ofJson_toJson {r : Report} (h : r.Fits) :
    ofJson r.toJson = .ok r ∧
      ∀ other : Report, other.Fits → other.toJson = r.toJson → other = r := by
  have hread {r : Report} (h : r.Fits) : ofJson r.toJson = .ok r :=
    (readsBack h).document (by decide)
  refine ⟨hread h, fun other hother heq => ?_⟩
  have hsame := hread hother
  rw [heq, hread h] at hsame
  exact (Except.ok.inj hsame).symm

/-- Two functions of a file, one of them with numbers and a name that need some care. -/
def exampleFunctions : List FunctionCoverage :=
  [⟨"tick", 1, 2, .method, some "Clock", ⟨true, false, false, 50⟩, true⟩,
    ⟨"line\n\u001f\\", 0, 2 ^ 64 - 1, .function, none, ⟨false, false, false, -10⟩, false⟩]

/-- A report on one file with the functions and the given test file. -/
def exampleReport (pairedTestFile : Option String) : Report where
  summary := ⟨3, 1, 1, 66.67, 2, 1⟩
  details := [⟨"lib/naïve \"clock\".dart", pairedTestFile, exampleFunctions, 50, "Dart"⟩]

lemma fits_exampleReport (pairedTestFile : Option String) :
    (exampleReport pairedTestFile).Fits := by
  have hoverall : IsPercentage 66.67 :=
    ⟨6667, by decide, Float.toBits_inj.mp (by decide +kernel)⟩
  have hhalf : IsPercentage 50 := ⟨5000, by decide, Float.toBits_inj.mp (by decide +kernel)⟩
  have hfunctions : ∀ f ∈ exampleFunctions, f.Fits := by
    refine List.forall_mem_cons.mpr ⟨⟨by decide, by decide, by decide⟩, ?_⟩
    exact List.forall_mem_singleton.mpr ⟨by decide, by decide, by decide⟩
  refine ⟨⟨?_, ?_, ?_, hoverall, ?_, ?_⟩, List.forall_mem_singleton.mpr ⟨hfunctions, hhalf⟩⟩
  all_goals simp [exampleReport]

theorem ofJson_toJson_exampleReport :
    ofJson (exampleReport none).toJson = .ok (exampleReport none) ∧
      (exampleReport (some "null")).toJson ≠ (exampleReport none).toJson := by
  obtain ⟨hread, hinjective⟩ := ofJson_toJson (fits_exampleReport none)
  refine ⟨hread, fun heq => ?_⟩
  have hsame := hinjective _ (fits_exampleReport (some "null")) heq
  have hfiles := congrArg (fun r : Report => r.details.map (·.pairedTestFile)) hsame
  simp [exampleReport] at hfiles

end Report

end CoverageEstimate
