import Stencil.Environment.Standard
import Stencil.Proofs.Renderer.Outcomes
import Stencil.Proofs.Script.Name
import Stencil.Proofs.Segment.RoundTrip

/-!
Templates that only fill in variables. Rendering one gives its texts and the values of its
variables, in order. The proof follows a source through the stages: its pieces, its segments, its
statements, and their run.
-/

namespace Stencil

open Stencil.Script
open Stencil.Text (isBlank)
open Stencil.Segment (allPieces gather flush)

set_option autoImplicit true

/-- A literal text, or a variable whose value goes through the escaper or not. -/
inductive Part where
  | text (s : String)
  | slot (name : String) (escape : Bool)

namespace Part

/-- The part as it stands in a source. -/
def source : Part → String
  | text s => s
  | slot name true => "<%= " ++ name ++ " %>"
  | slot name false => "<%- " ++ name ++ " %>"

def sourceAll : List Part → String
  | [] => ""
  | part :: rest => part.source ++ sourceAll rest

/-- What the part contributes to the output. -/
def shown (env : Environment) (data : Table Value) : Part → String
  | text s => s
  | slot name escape =>
    let v := (data.get? name).getD .null
    if escape then env.escaper v else v.display

def shownAll (env : Environment) (data : Table Value) : List Part → String
  | [] => ""
  | part :: rest => part.shown env data ++ shownAll env data rest

/-- A text without carriage returns, or a variable with a value. -/
def Fillable (data : Table Value) : Part → Prop
  | text s => '\r' ∉ s.toList
  | slot name _ => IsName name ∧ isReserved name = false ∧ data.contains name = true

/-- No tag opens inside a text of the source. -/
def Opened : List Part → Prop
  | [] => True
  | text s :: rest =>
    (∀ i < s.toList.length, ¬['<', '%'] <+: (s.toList ++ (sourceAll rest).toList).drop i) ∧
      Opened rest
  | slot _ _ :: rest => Opened rest

/-- The part as a segment; its line does not count. -/
def segment : Part → Segment
  | text s => .literal s
  | slot name escape => .emit (" " ++ name ++ " ") escape 1

end Part

namespace Part

theorem written_segment (part : Part) : part.segment.written .standard = part.source.toList := by
  cases part with
  | text s => rfl
  | slot name escape =>
    cases escape <;>
    · simp only [segment, Segment.written, source, String.toList_append, List.append_assoc]
      rfl

theorem source_segments (parts : List Part) :
    Segment.source .standard (parts.map segment) = (sourceAll parts).toList := by
  induction parts with
  | nil => rfl
  | cons part rest ih =>
    rw [List.map_cons, Segment.source_cons, ih, written_segment, sourceAll, String.toList_append]

theorem Opened.segments (h : Opened parts) :
    Segment.OpenedByTags .standard (parts.map segment) := by
  induction parts with
  | nil => trivial
  | cons part rest ih =>
    cases part with
    | text s =>
      refine ⟨?_, ih h.2⟩
      rw [source_segments]
      exact h.1
    | slot => exact ih h

end Part

theorem kept_name (h : IsName name) : Segment.Kept .standard (" " ++ name ++ " ").toList := by
  refine ⟨Text.endsFirst_of_not_mem ?_, ?_⟩
  · rw [toList_between]
    intro hm
    have hm' : '%' ∈ name.toList := by simpa using hm
    have hp : isNamePart '%' = true := h.part_of_mem hm'
    revert hp
    decide
  · rw [toList_between, List.getLast?_cons, List.getLast?_concat]
    nofun

theorem legible_segment (h : Part.Fillable data part) : part.segment.Legible .standard := by
  cases part with
  | text s => exact h
  | slot name escape =>
    obtain ⟨hn, _, _⟩ := h
    refine ⟨kept_name hn, ?_⟩
    obtain ⟨c, rest, hc, hs, _⟩ := hn
    have hb : isBlank c = false := isBlank_of_isNameStart hs
    have hne : c ≠ ':' := ne_of_isNameStart hs rfl
    rw [toList_between, hc, List.dropWhile_cons_of_pos rfl, List.cons_append,
      List.dropWhile_cons_of_neg (Bool.eq_false_iff.mp hb), List.head?_cons]
    intro he
    exact hne (Option.some.inj he)

/-- What a segment contributes to the output. -/
inductive Shows (env : Environment) (data : Table Value) : Segment → String → Prop where
  | literal : Shows env data (.literal t) t
  | emit : IsName name → isReserved name = false → data.get? name = some v →
      Shows env data (.emit (" " ++ name ++ " ") escape line)
        (if escape then env.escaper v else v.display)

inductive ShowsAll (env : Environment) (data : Table Value) : List Segment → String → Prop where
  | nil : ShowsAll env data [] ""
  | cons {segment : Segment} : Shows env data segment a → ShowsAll env data rest b →
      ShowsAll env data (segment :: rest) (a ++ b)

theorem ShowsAll.flush (h : ShowsAll env data rest out) (pending : List Char) :
    ShowsAll env data (flush pending rest) (String.ofList pending.reverse ++ out) := by
  unfold Segment.flush
  split
  · rename_i hp
    rw [List.isEmpty_iff.mp hp, List.reverse_nil, String.ofList_nil, String.empty_append]
    exact h
  · exact .cons .literal h

theorem shows_segment (h : Part.Fillable data (.slot name escape)) (line : Nat) :
    Shows env data (.emit (" " ++ name ++ " ") escape line)
      ((Part.slot name escape).shown env data) := by
  obtain ⟨hn, hr, hb⟩ := h
  obtain ⟨v, hv⟩ := Option.isSome_iff_exists.mp hb
  rw [Part.shown, hv]
  exact .emit hn hr hv

/-- The segments of a source show what its parts show, behind the text that is still pending. -/
theorem shows_gather (env : Environment) (pending : List Char) (line : Nat)
    (h : ∀ part ∈ parts, Part.Fillable data part) :
    ShowsAll env data (gather pending (allPieces line (parts.map Part.segment)))
      (String.ofList pending.reverse ++ Part.shownAll env data parts) := by
  induction parts generalizing pending line with
  | nil => exact ShowsAll.nil.flush pending
  | cons part rest ih =>
    have hr : ∀ p ∈ rest, Part.Fillable data p := fun p hp => h p (List.mem_cons_of_mem part hp)
    have hp : part.Fillable data := h part List.mem_cons_self
    rw [List.map_cons, allPieces, Part.shownAll]
    cases part with
    | text s =>
      have he : String.ofList pending.reverse ++ ((Part.text s).shown env data ++
          Part.shownAll env data rest) =
          String.ofList (s.toList.reverse ++ pending).reverse ++ Part.shownAll env data rest := by
        rw [List.reverse_append, List.reverse_reverse, String.ofList_append, String.ofList_toList,
          String.append_assoc]
        rfl
      rw [he, Part.segment, Segment.pieces, Segment.gather_text]
      exact ih (s.toList.reverse ++ pending) (line + newlines s.toList) hr
    | slot name escape =>
      have hl := legible_segment hp
      rw [Part.segment, Segment.pieces, List.singleton_append, gather, Segment.segment_tag hl.2]
      refine (ShowsAll.cons (shows_segment hp line) ?_).flush pending
      exact ih [] (line + newlines (" " ++ name ++ " ").toList) hr

theorem parse_sourceAll (hd : Delimiters.ofStrings? o.opener o.closer = some .standard)
    (he : o.eatspace = false) (h : ∀ part ∈ parts, Part.Fillable data part)
    (ho : Part.Opened parts) :
    Template.parse (Part.sourceAll parts) o =
      .ok (gather [] (allPieces 1 (parts.map Part.segment))) := by
  have hl : ∀ segment ∈ parts.map Part.segment, segment.Legible .standard := by
    intro segment hs
    obtain ⟨part, hp, rfl⟩ := List.mem_map.mp hs
    exact legible_segment (h part hp)
  have hp := Segment.ofSource_source 1 hl ho.segments
  have hk := Segment.kept_plain ⟨false, false⟩ (allPieces 1 (parts.map Part.segment)) fun c hc =>
    Segment.ne_of_mem_allPieces hl hc
  rw [Part.source_segments] at hp
  simp only [Template.parse, hd, Segment.scan, he, hp, Except.map, hk, Except.mapError]

/-- A run of the program adds the text to the output, and binds nothing. -/
def Writes (scope : Scope) (limit : Nat) (program : List Stmt) (out : String) : Prop :=
  ∀ s : State, s.blocks = [] → s.base = ∅ →
    ∃ line, run scope limit program s = .ok .normal { s with out := s.out ++ out, line := line }

theorem Writes.nil (scope : Scope) (limit : Nat) : Writes scope limit [] "" := by
  intro s _ _
  refine ⟨s.line, ?_⟩
  rw [String.append_empty]
  rfl

theorem Writes.text (h : Writes scope limit program out) (t : String) :
    Writes scope limit (.text t :: program) (t ++ out) := by
  intro s hb hf
  obtain ⟨line, hr⟩ := h (s.write t) hb hf
  refine ⟨line, ?_⟩
  rw [← String.append_assoc]
  exact hr

/-- Where nothing is bound, a name has its value among those of the scope. -/
theorem lookup_of_values {s : State} (hb : s.blocks = []) (hf : s.base = ∅)
    (hv : scope.values.get? name = some v) : Exec.lookup scope name s = .ok v s := by
  have hg : (get : Exec State) s = .ok s s := rfl
  have hn : s.binding? name = none := by
    simp only [State.binding?, State.frames, hb, hf]
    rfl
  have hl : scope.lookup? s name = some v := by
    rw [Scope.lookup?, hn, hv]
  rw [Exec.lookup, bind_eq_of_ok hg, hl]
  rfl

theorem Writes.output (h : Writes scope limit program out) (hv : scope.values.get? name = some v)
    (escape : Bool) (line : Nat) :
    Writes scope limit (.output (.ident name) escape line :: program)
      ((if escape then scope.env.escaper v else v.display) ++ out) := by
  intro s hb hf
  obtain ⟨line', hr⟩ := h ((s.atLine line).write (if escape then scope.env.escaper v
    else v.display)) hb hf
  refine ⟨line', ?_⟩
  have hx : eval scope limit (.ident name) (s.atLine line) = .ok v (s.atLine line) := by
    rw [eval]
    exact lookup_of_values hb hf hv
  have he : exec scope limit (.output (.ident name) escape line) s = .ok .normal
      ((s.atLine line).write (if escape then scope.env.escaper v else v.display)) := by
    have ha : Exec.atLine line s = .ok () (s.atLine line) := rfl
    rw [exec, bind_eq_of_ok ha, bind_eq_of_ok hx]
    rfl
  rw [← String.append_assoc, run, bind_eq_of_ok he]
  exact hr

theorem ShowsAll.compiled (h : ShowsAll env data segments out) (last : Nat) :
    ∃ items program, Items.ofSegments last segments = .ok items ∧
      (∀ last', DerivesAll last' items program) ∧
      ∀ scope limit, scope.env = env →
        (∀ name v, data.get? name = some v → scope.values.get? name = some v) →
        Writes scope limit program out := by
  induction h generalizing last with
  | nil =>
    exact ⟨[], [], rfl, fun _ => .nil, fun scope limit _ _ => .nil scope limit⟩
  | @cons t _ _ _ hs _ ih =>
    cases hs with
    | literal =>
      obtain ⟨items, program, hi, hp, hw⟩ := ih last
      refine ⟨.text t last :: items, .text t :: program, ?_, fun last' => ?_, ?_⟩
      · have hl : Items.lastLine last [.text t last] = last := rfl
        simp only [Items.ofSegments, Items.ofSegment, bind, Except.bind, hl, hi]
        rfl
      · exact .cons rfl .text (hp last')
      · intro scope limit he hv
        exact (hw scope limit he hv).text t
    | @emit name v escape line hn hr hv =>
      obtain ⟨items, program, hi, hp, hw⟩ := ih line
      refine ⟨.output (.ident name) escape line :: items,
        .output (.ident name) escape line :: program, ?_, fun last' => ?_, ?_⟩
      · have hl : Items.lastLine last [.output (.ident name) escape line] = line := rfl
        simp only [Items.ofSegments, Items.ofSegment, parseExpression_name hn hr, Except.map, bind,
          Except.bind, hl, hi]
        rfl
      · exact .cons rfl .output (hp last')
      · rintro scope limit rfl hvs
        exact (hw scope limit rfl hvs).output (hvs name v hv) escape line

theorem get?_values {o : Options} (h : o.data.get? name = some v) :
    o.values.get? name = some v := by
  rw [Options.values, Table.get?_extend, h]
  rfl

/-- The source of some parts is compiled to a template that shows them. -/
theorem compile_sourceAll (env : Environment) (stamp : Nat)
    (hd : Delimiters.ofStrings? o.opener o.closer = some .standard) (he : o.eatspace = false)
    (h : ∀ part ∈ parts, part.Fillable o.data) (ho : Part.Opened parts) :
    ∃ t, Template.compile stamp (Part.sourceAll parts) o env = .ok t ∧
      t.render o = .ok (Part.shownAll env o.data parts) := by
  have hs := parse_sourceAll hd he h ho
  have hg := shows_gather env [] 1 h
  rw [List.reverse_nil, String.ofList_nil, String.empty_append] at hg
  generalize gather [] (allPieces 1 (parts.map Part.segment)) = segments at hs hg
  obtain ⟨items, program, hi, hp, hw⟩ := hg.compiled 1
  have hb : build segments = .ok program := by
    rw [build, hi]
    exact statements_of_derivesAll (hp _)
  obtain ⟨line, hr⟩ := hw ⟨o.values, o.locals, o.scope, env⟩ maxRounds rfl
    (fun name v => get?_values) .initial rfl rfl
  have hx : execute ⟨o.values, o.locals, o.scope, env⟩ maxRounds program =
      .ok (Part.shownAll env o.data parts) := by
    rw [execute, hr, State.initial, String.empty_append]
  refine ⟨⟨stamp, Part.sourceAll parts, o.filename, segments, program, env⟩, ?_, ?_⟩
  · simp only [Template.compile, hs, hb, bind, Except.bind, Except.mapError]
    rfl
  · simp only [Template.render, Template.renderWith, hx, Except.mapError]

/-- Without the cache a source is compiled, and the template rendered. -/
theorem Rendering.render_eq_ok (hc : o.cache = false)
    (ht : Template.compile desk.stamp source o env = .ok t) (hr : t.render o = .ok out) :
    Rendering.render env source o desk = .ok out (desk.compiled source o) := by
  have hf : Rendering.templateFor env source o desk = .ok t (desk.compiled source o) := by
    rw [Rendering.templateFor, hc]
    change Rendering.compile env source o desk = _
    rw [Rendering.compile_eq, ht]
  rw [Rendering.render, bind_eq_of_ok hf, hr]
  rfl

/-- Rendering the source of some parts gives their texts and the values of their variables, in
order. -/
theorem render_sourceAll (env : Environment) (o : Options) (desk : Desk) (hopen : o.opener = "<%")
    (hclose : o.closer = "%>") (he : o.eatspace = false) (hc : o.cache = false)
    (h : ∀ part ∈ parts, part.Fillable o.data) (ho : Part.Opened parts) :
    (Rendering.render env (Part.sourceAll parts) o).run desk =
      .ok (Part.shownAll env o.data parts) (desk.compiled (Part.sourceAll parts) o) := by
  have hd : Delimiters.ofStrings? o.opener o.closer = some .standard := by
    rw [hopen, hclose]
    rfl
  obtain ⟨t, ht, hr⟩ := compile_sourceAll env desk.stamp hd he h ho
  exact Rendering.render_eq_ok hc ht hr

/-- A variable with the name of an option, and one whose tag stands right behind a bracket. -/
def greeting : List Part := [.text "a\n", .slot "open" true, .text "", .text "<", .slot "名" false]

def greetingOptions : Options :=
  ({ Options.initial with eatspace := false }.set "open" (.string "<b>")).set "名" (.bool true)

theorem greeting_fillable : ∀ part ∈ greeting, part.Fillable greetingOptions.data := by
  have hopen : IsName "open" := ⟨'o', ['p', 'e', 'n'], rfl, by decide, List.all_eq_true.mp rfl⟩
  have hname : IsName "名" := ⟨'名', [], rfl, by decide +kernel, nofun⟩
  simp only [greeting, List.forall_mem_cons]
  refine ⟨?_, ⟨hopen, by decide, by decide⟩, ?_, ?_, ⟨hname, by decide, by decide⟩,
    List.forall_mem_nil _⟩
  all_goals
    unfold Part.Fillable
    decide

theorem render_sourceAll_greeting :
    (∀ part ∈ greeting, part.Fillable greetingOptions.data) ∧ Part.Opened greeting ∧
      (Rendering.render .standard "a\n<%= open %><<%- 名 %>" greetingOptions).run .new =
        .ok "a\n&lt;b&gt;<true"
          (Desk.new.compiled "a\n<%= open %><<%- 名 %>" greetingOptions) := by
  have ho : Part.Opened greeting := ⟨by decide, by decide, by decide, trivial⟩
  have hr := render_sourceAll .standard greetingOptions .new rfl rfl rfl rfl greeting_fillable ho
  have hs : Part.sourceAll greeting = "a\n<%= open %><<%- 名 %>" := by decide
  have hv : Part.shownAll .standard greetingOptions.data greeting = "a\n&lt;b&gt;<true" := by
    decide
  rw [hs, hv] at hr
  exact ⟨greeting_fillable, ho, hr⟩

end Stencil
