import ApiGateway.Condition.Evaluate
import ApiGateway.Proofs.Condition.Rendering
import ApiGateway.Proofs.Http.Readable

/-! Headers in conditions. A header is found and compared if its value is ASCII. Any other value is
said not to be UTF-8, which is true of some such values only. -/

namespace ApiGateway
namespace Condition

variable {name : HeaderName} {value : HeaderValue} {text literal : String} {raw : Json}
  {r : Request}

def headerComparison (selected : String) (raw : Json) : Json :=
  operation .equals [.str ("header." ++ selected), raw]

def headerTest (selected : String) : Json := operation .present [.str ("header." ++ selected)]

theorem fieldOperand_header {selected : String} (hname : HeaderName.ofText? selected = some name)
    (operator : Operator) :
    fieldOperand operator (.str ("header." ++ selected)) = .ok (.header name) := by
  simp only [fieldOperand, textOperand, bind, Except.bind, Field.ofSelector?_header, hname,
    Option.map_some]

theorem compile_headerComparison {selected : String}
    (hname : HeaderName.ofText? selected = some name)
    (hliteral : literalOperand .equals raw = .ok literal) :
    compile (headerComparison selected raw) = .ok (.equals (.header name) literal) := by
  refine compileAt_leaf (by decide) fun nested => ?_
  have happly : applyOperator .equals [.str ("header." ++ selected), raw] nested =
      fieldOperand .equals (.str ("header." ++ selected)) >>= fun field =>
        literalOperand .equals raw >>= fun text => .ok (.equals field text) := rfl
  rw [happly, fieldOperand_header hname, hliteral]
  rfl

theorem compile_headerTest {selected : String} (hname : HeaderName.ofText? selected = some name) :
    compile (headerTest selected) = .ok (.present (.header name)) := by
  refine compileAt_leaf (by decide) fun nested => ?_
  have happly : applyOperator .present [.str ("header." ++ selected)] nested =
      (fieldOperand .present (.str ("header." ++ selected))).map .present := rfl
  rw [happly, fieldOperand_header hname]
  rfl

theorem evaluate_header_of_none (hvalue : r.headers.get? name = some value)
    (htext : value.text? = none) (literal : String) :
    evaluate r.view (.equals (.header name) literal) = .error (.unreadableHeader name) ∧
      evaluate r.view (.present (.header name)) = .ok false := by
  have hheader : r.view.header name = some value := hvalue
  have hresolve : r.view.resolve (.header name) = .error (.unreadableHeader name) := by
    simp only [View.resolve, View.answer, Field.read, hheader, htext]
  rw [evaluate, evaluate, hresolve]
  exact ⟨rfl, rfl⟩

theorem evaluate_header_of_isAscii (hvalue : r.headers.get? name = some value)
    (hbytes : Text.encodeUtf8 text = value.bytes) (hascii : Text.IsAscii text) (literal : String) :
    evaluate r.view (.equals (.header name) literal) =
        .ok (decide (value.bytes = Text.encodeUtf8 literal)) ∧
      evaluate r.view (.present (.header name)) = .ok true := by
  have hheader : r.view.header name = some value := hvalue
  have htext := HeaderValue.text?_eq_some.mpr ⟨hbytes, hascii⟩
  have hresolve : r.view.resolve (.header name) = .ok text := by
    simp only [View.resolve, View.answer, Field.read, hheader, htext]
  have hsame : (text == literal) = decide (value.bytes = Text.encodeUtf8 literal) := by
    rw [Bool.eq_iff_iff, beq_iff_eq, decide_eq_true_eq]
    constructor
    · rintro rfl
      exact hbytes.symm
    · intro hencoded
      -- the literal has the same bytes, so that it is ASCII too and the value reads as both
      have hliteral : value.text? = some literal := by
        refine HeaderValue.text?_eq_some.mpr ⟨hencoded.symm, ?_⟩
        rw [Text.isAscii_iff, ← hencoded, ← hbytes]
        exact Text.isAscii_iff.mp hascii
      exact Option.some.inj (htext.symm.trans hliteral)
  rw [evaluate, evaluate, hresolve, ← hsame]
  exact ⟨rfl, rfl⟩

/-- A selected header that a request has is compared, and is there, if its first value encodes a
text in ASCII, and then the comparison is one of encodings. If the value is no UTF-8, or encodes a
text that goes beyond ASCII, the comparison fails for an unreadable header, and the header counts as
missing. -/
theorem header_reads_ascii_only {selected : String} (hname : HeaderName.ofText? selected = some name)
    (hliteral : literalOperand .equals raw = .ok literal) :
    ∃ comparison test, compile (headerComparison selected raw) = .ok comparison ∧
      compile (headerTest selected) = .ok test ∧
      ∀ (r : Request) (value : HeaderValue), r.headers.get? name = some value →
        (¬ value.bytes.toByteArray.IsValidUTF8 →
          comparison.evaluate r.view = .error (.unreadableHeader name) ∧
            test.evaluate r.view = .ok false) ∧
        ∀ text, Text.encodeUtf8 text = value.bytes →
          (Text.IsAscii text →
            comparison.evaluate r.view = .ok (decide (value.bytes = Text.encodeUtf8 literal)) ∧
              test.evaluate r.view = .ok true) ∧
          (¬ Text.IsAscii text →
            comparison.evaluate r.view = .error (.unreadableHeader name) ∧
              test.evaluate r.view = .ok false) := by
  refine ⟨_, _, compile_headerComparison hname hliteral, compile_headerTest hname,
    fun r value hvalue => ⟨fun hinvalid => ?_, fun text hbytes => ⟨fun hascii => ?_,
      fun hbeyond => ?_⟩⟩⟩
  · have htext := HeaderValue.text?_of_not_isValidUTF8 hinvalid
    exact evaluate_header_of_none hvalue htext literal
  · exact evaluate_header_of_isAscii hvalue hbytes hascii literal
  · have htext := HeaderValue.text?_of_not_isAscii hbytes hbeyond
    exact evaluate_header_of_none hvalue htext literal

def city : HeaderName := ⟨"x-city", by decide⟩

def fromCity (value : HeaderValue) : Request :=
  { Request.ofUri .root with headers := [(city, value)] }

theorem header_reads_ascii_only_bern :
    let bern : HeaderValue := ⟨Text.encodeUtf8 "Bern", by decide⟩
    let c : Condition := .equals (.header city) "Bern"
    HeaderName.ofText? "X-City" = some city ∧
      literalOperand .equals (.str "Bern") = .ok "Bern" ∧
      (fromCity bern).headers.get? city = some bern ∧ Text.IsAscii "Bern" ∧
      compile (headerComparison "X-City" (.str "Bern")) = .ok c ∧
      c.evaluate (fromCity bern).view = .ok true := by
  intro bern c
  have hname : HeaderName.ofText? "X-City" = some city := by decide
  have hliteral : literalOperand .equals (.str "Bern") = .ok "Bern" := rfl
  have hvalue : (fromCity bern).headers.get? city = some bern := rfl
  have hascii : Text.IsAscii "Bern" := by decide
  obtain ⟨comparison, _, hcomparison, _, hrequests⟩ := header_reads_ascii_only hname hliteral
  have hc : compile (headerComparison "X-City" (.str "Bern")) = .ok c :=
    compile_headerComparison hname hliteral
  obtain rfl : c = comparison := Except.ok.inj (hc.symm.trans hcomparison)
  have hholds := ((hrequests (fromCity bern) bern hvalue).2 "Bern" rfl).1 hascii
  exact ⟨hname, hliteral, hvalue, hascii, hc, hholds.1.trans rfl⟩

theorem header_of_utf8_unreadable :
    let zurich : HeaderValue := ⟨Text.encodeUtf8 "Zürich", by decide⟩
    let c : Condition := .equals (.header city) "Zürich"
    compile (headerComparison "x-city" (.str "Zürich")) = .ok c ∧
      (fromCity zurich).headers.get? city = some zurich ∧
      zurich.bytes.toByteArray.IsValidUTF8 ∧ zurich.bytes = Text.encodeUtf8 "Zürich" ∧
      c.evaluate (fromCity zurich).view = .error (.unreadableHeader city) ∧
      (EvaluationError.unreadableHeader city).message =
        "header \"x-city\" is not valid UTF-8" ∧
      (Condition.present (.header city)).evaluate (fromCity zurich).view = .ok false := by
  intro zurich c
  have hutf8 : zurich.bytes.toByteArray.IsValidUTF8 := Text.isValidUTF8_iff.mpr ⟨"Zürich", rfl⟩
  exact ⟨rfl, rfl, hutf8, rfl, rfl, rfl, rfl⟩

end Condition
end ApiGateway
