/-
Compiling by positions in bytes, and why no position is unsound.

`compileOctets` finds the spans of a template with their places in bytes, and cuts out what stands between them, where
every cut is checked. It is `compile` (`compileOctets_eq`), so no cut is refused whatever a query binds and however its
values are quoted. `scan_and_splice_in_bounds` puts this together with what is known of a scan from every position.
-/
import SqlAccess.Proofs.Query.Splice
import SqlAccess.Proofs.Template.Octets

namespace SqlAccess

open Template Text

namespace Template

/-- what is known of all positions in bytes at which a template is looked at and cut -/
structure InBounds (template : Text) : Prop where
  /-- a byte is looked at only below the size -/
  byte : ∀ position, (∃ c, template.byteAt position = .ok c) ↔ position < template.size
  /-- and cut is only between positions that are in order, not past the end and boundaries of characters -/
  cut : ∀ start stop, (∃ piece, template.slice start stop = .ok piece) ↔
    start ≤ stop ∧ stop ≤ template.size ∧ template.IsBoundary start ∧ template.IsBoundary stop
  /-- a quoted run has an end, from wherever a backslash pair has led to -/
  run : ∀ mark escapes position, ∃ stop, quotedEnd template mark escapes position = .ok stop ∧
    min position template.size ≤ stop ∧ stop ≤ template.size
  /-- from every position, also inside a character, a turn is not refused and goes forward, not past the end -/
  turn : ∀ position < template.size, ∃ next found, turnAt template position = .ok (next, found) ∧
    position < next ∧ next ≤ template.size
  /-- no scan is refused, and it finds the placeholders -/
  scan : spans template = .ok ((placeholders template).map (Placeholder.inOctets template))
  /-- these are in order and apart -/
  ordered : ((placeholders template).map (Placeholder.inOctets template)).Pairwise fun p p' => p.stop ≤ p'.start
  /-- each stands between two boundaries -/
  inside : ∀ p ∈ (placeholders template).map (Placeholder.inOctets template),
    p.start ≤ p.stop ∧ p.stop ≤ template.size ∧ template.IsBoundary p.start ∧ template.IsBoundary p.stop

end Template

namespace Query

variable {σ : Type}

/-! ## Splicing in bytes -/

/-- the template from byte `copied` on, with the spans that stand there filled and all else copied -/
def spliceOctets (conn : Connection σ) (cells : Cells) (q : Query) (copied : Nat) :
    List Placeholder → ExceptT Misplaced (Action σ) Text
  | [] => liftExcept (q.template.slice copied q.template.size)
  | span :: spans =>
    match q.lookup? span.name with
    | none => ExceptT.lift (throw (.unboundParameter span.name))
    | some parameter => do
      let between ← liftExcept (q.template.slice copied span.start)
      let text ← ExceptT.lift (conn.quote (parameter.current cells))
      let others ← spliceOctets conn cells q span.stop spans
      return between ++ (text ++ others)

/-- the template with every placeholder filled, found and replaced by positions in bytes -/
def compileOctets (conn : Connection σ) (cells : Cells) (q : Query) : ExceptT Misplaced (Action σ) Text := do
  let spans ← liftExcept (spans q.template)
  q.spliceOctets conn cells 0 spans

variable {conn : Connection σ} {cells : Cells} {q : Query}

theorem lift_bind {α β : Type} (x : Action σ α) (f : α → Action σ β) :
    (ExceptT.lift (x >>= f) : ExceptT Misplaced (Action σ) β) = ExceptT.lift x >>= fun a => ExceptT.lift (f a) := by
  apply ExceptT.ext
  simp only [ExceptT.run_bind_lift, ExceptT.run_lift, map_bind]

theorem lift_pure {α : Type} (a : α) :
    (ExceptT.lift (pure a : Action σ α) : ExceptT Misplaced (Action σ) α) = pure a := by
  apply ExceptT.ext
  rw [ExceptT.run_lift, map_pure, ExceptT.run_pure]

theorem spliceOctets_eq {copied : Nat} (hcopied : copied ≤ q.template.length) {spans : List Placeholder}
    (hapart : Apart q.template spans) (hfrom : ∀ p ∈ spans, copied ≤ p.start) :
    q.spliceOctets conn cells (size (q.template.take copied)) (spans.map (Placeholder.inOctets q.template)) =
      ExceptT.lift (q.splice conn cells copied (q.template.drop copied) spans) := by
  induction spans generalizing copied with
  | nil =>
    have hsplit := List.take_append_drop copied q.template
    have hslice := slice_to_end (q.template.take copied) (q.template.drop copied)
    rw [hsplit] at hslice
    rw [List.map_nil, spliceOctets, hslice, splice]
    exact (lift_pure _).symm
  | cons p spans ih =>
    obtain ⟨hspan, hinside⟩ := hapart.inside p List.mem_cons_self
    have hnext : ∀ p' ∈ spans, p.stop ≤ p'.start := (List.pairwise_cons.1 hapart.ordered).1
    have hslice := slice_take q.template (hfrom p List.mem_cons_self)
    have hdrop : (q.template.drop copied).drop (p.stop - copied) = q.template.drop p.stop := by
      rw [List.drop_drop, Nat.add_sub_cancel' (Nat.le_trans (hfrom p List.mem_cons_self) hspan)]
    have hname : (Placeholder.inOctets q.template p).name = p.name := rfl
    rw [List.map_cons, spliceOctets, splice, hdrop, hname]
    cases q.lookup? p.name with
    | none => rfl
    | some parameter =>
      simp only [Placeholder.inOctets, hslice, ih hinside hapart.tail hnext, lift_bind, lift_pure]
      exact pure_bind _ _

theorem compileOctets_eq (conn : Connection σ) (cells : Cells) (q : Query) :
    q.compileOctets conn cells = ExceptT.lift (q.compile conn cells) := by
  rw [compileOctets, spans_eq, compile]
  exact spliceOctets_eq (Nat.zero_le _) (placeholders_apart q.template) fun p _ => Nat.zero_le p.start

/-! ## Sound positions -/

/-- **Scanning and splicing stay in bounds.** Whatever the template, every byte that is looked at is there and every cut
is sound, and each turn of the scan goes forward. So compiling by positions in bytes is never refused one: it is
compiling, with whatever outcome. -/
theorem scan_and_splice_in_bounds (conn : Connection σ) (cells : Cells) (q : Query) :
    InBounds q.template ∧ q.compileOctets conn cells = ExceptT.lift (q.compile conn cells) := by
  have hapart := placeholders_apart q.template
  refine ⟨⟨fun position => ?_, fun start stop => slice_sound_iff, exists_quotedEnd q.template, fun position h => ?_,
    spans_eq q.template, ?_, ?_⟩, compileOctets_eq conn cells q⟩
  · exact ⟨fun ⟨c, hc⟩ => lt_size_of_byteAt hc, exists_byteAt⟩
  · obtain ⟨next, found, hturn⟩ := exists_turnAt h
    exact ⟨next, found, hturn, turnAt_forward hturn⟩
  · exact List.pairwise_map.2 (hapart.ordered.imp (size_take_le q.template))
  · intro p hp
    obtain ⟨p, hmem, rfl⟩ := List.mem_map.1 hp
    obtain ⟨hspan, hinside⟩ := hapart.inside p hmem
    have hstop := size_take_le q.template hinside
    rw [List.take_length] at hstop
    exact ⟨size_take_le q.template hspan, hstop, isBoundary_take q.template _, isBoundary_take q.template _⟩

/-- a backslash pair that ends inside a character, and one that would end behind the template -/
def cutShort : Query := of .select "E'\\é' :a E'\\".toList

/-- The placeholder is found between the two, and a turn inside the character takes one byte at least. -/
theorem scan_and_splice_in_bounds_cutShort :
    spans cutShort.template = .ok [⟨7, 9, ['a']⟩] ∧
    (∃ next found, turnAt cutShort.template 4 = .ok (next, found) ∧ 4 < next ∧ next ≤ 13) ∧
    ∃ stop, quotedEnd cutShort.template '\'' true 14 = .ok stop ∧ 13 ≤ stop ∧ stop ≤ 13 := by
  obtain ⟨hbounds, -⟩ := scan_and_splice_in_bounds (Recorder.connection []) .empty cutShort
  have hspans : (placeholders cutShort.template).map (Placeholder.inOctets cutShort.template) = [⟨7, 9, ['a']⟩] := by
    decide +kernel
  refine ⟨?_, hbounds.turn 4 (by decide), hbounds.run '\'' true 14⟩
  rw [hbounds.scan, hspans]

end Query

end SqlAccess
