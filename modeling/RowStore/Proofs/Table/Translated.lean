import RowStore.Proofs.Query.Scanned
import RowStore.Proofs.Sheet.Scripted
import RowStore.Proofs.Table.Consulted
import RowStore.Proofs.Table.Sample

/-!
# Queries with bracketed headers

* `Table.queries_knownColumns` : what is sent for the columns that a table knows;
* `Table.run_query_of_refused` : a query whose text is refused gives nothing, and sends nothing but that;
* `Table.query_translates` : the tokens of a text are replaced by the codes of the headers that they name, all
  of them or none.
-/

namespace RowStore.Table

open Act Query

variable {σ : Type} {party : Party σ} {t : Table} {s : Session} {st : σ}

/-- The query for the columns is sent where none are held, and no other one is. -/
theorem queries_knownColumns (party : Party σ) (t : Table) (s : Session) (st : σ) :
    queries party t.knownColumns s st = if s.held.isNone then t.asking party s st else [] := by
  have hknown : Consults party t (fun s => s.held.isNone) false t.knownColumns := Consults.knownColumns
  obtain ⟨_, hsent, rfl | ⟨⟨⟩, -⟩⟩ := (meets_sending.mp (hknown s (st, []))).sent
  simpa using hsent

theorem eq_of_mem_queries_knownColumns {text : Text} (h : text ∈ queries party t.knownColumns s st) :
    text = columnsQuery := by
  rw [queries_knownColumns] at h
  split at h
  · rcases maySend_asking party t s st with hone | ⟨hnone, -⟩
    · rw [hone] at h
      exact List.mem_singleton.mp h
    · rw [hnone] at h
      cases h
  · cases h

/-- The note that a caught fault leaves asks for nothing. -/
theorem trace_catching {α γ : Type} {view : {β : Type} → Request β → List γ} (holds : Fault.Kind → Bool)
    (level : NoteLevel) (label : String) (m : Act α) :
    trace party view (catching holds level label m) s st = trace party view m s st := by
  rw [catching, trace_bind, trace_observe, run_observe]
  dsimp only
  cases (run party m s st).1 with
  | ok a => exact List.append_nil _
  | error fault =>
    dsimp only
    split <;> exact List.append_nil _

/-- A refusal that is caught becomes the outcome. -/
theorem run_catchingRefusal_of_error {α : Type} {m : Act α} {fault : Fault}
    (h : (run party m s st).1 = .error fault) (hkind : fault.kind.isValidation = true) (operation : String) :
    ∃ s' st', run party (catchingRefusal operation m) s st = (.ok (.error fault), s', st') := by
  rw [catchingRefusal, catching, run_bind, run_observe, h]
  dsimp only
  rw [if_pos hkind]
  exact ⟨_, _, rfl⟩

/-- A query whose text is refused gives nothing, and sends nothing but what is sent for the columns. -/
theorem run_query_of_refused {columns : Option Columns} {text : Value} {fault : Fault}
    (hcolumns : (run party t.knownColumns s st).1 = .ok columns)
    (hrefused : Bracket.resolve columns text = .error fault) (hkind : fault.kind.isValidation = true) :
    (run party (t.query text) s st).1 = .ok none ∧
      queries party (t.query text) s st = queries party t.knownColumns s st := by
  obtain ⟨s₁, st₁, hrun⟩ : ∃ s₁ st₁, run party t.knownColumns s st = (.ok columns, s₁, st₁) :=
    ⟨_, _, Prod.ext hcolumns rfl⟩
  have hresolved : (run party (do
      let columns ← t.knownColumns
      Bracket.resolve columns text) s st).1 = .error fault := by
    rw [run_bind, hrun]
    dsimp only
    rw [run_liftExcept, hrefused]
  obtain ⟨s₂, st₂, hcaught⟩ := run_catchingRefusal_of_error hresolved hkind "query"
  rw [queries_eq_trace, queries_eq_trace, query, run_bind, trace_bind, hcaught]
  refine ⟨rfl, ?_⟩
  rw [catchingRefusal, trace_catching, trace_bind, hrun]
  dsimp only
  rw [trace_liftExcept, List.append_nil]
  exact List.append_nil _

/-- A text has one way of being taken apart into tokens and other code points. If its tokens all name headers,
it is translated into itself with the codes in the places of the tokens; if not, it is refused for the first
token that names none. A query whose text is refused gives nothing, and no query is sent for it but the one
for the columns. -/
theorem query_translates (party : Party σ) (t : Table) (s : Session) (st : σ) (text : Text) :
    ∃ ps, (∀ ps', Bracket.Scanned text ps' ↔ ps' = ps) ∧ ps.flatMap Bracket.Piece.written = text ∧
    (∀ c : Columns, c.isEmpty = false → HasTextCodes c →
      ((∀ name, .token name ∈ ps → Bracket.HasHeader c name) →
        ∃ texts, List.Forall₂ (Bracket.Replaces c) ps texts ∧
          (Distinct c.list → ∀ texts', List.Forall₂ (Bracket.Replaces c) ps texts' → texts' = texts) ∧
          Bracket.resolve (some c) (.text text) = .ok texts.flatten) ∧
      ((∃ name, .token name ∈ ps ∧ ¬ Bracket.HasHeader c name) →
        ∃ before name after, ps = before ++ .token name :: after ∧
          (∀ other, .token other ∈ before → Bracket.HasHeader c other) ∧ ¬ Bracket.HasHeader c name ∧
          Bracket.resolve (some c) (.text text) = .error (.bracket (.unknownHeader name c.headers)))) ∧
    ∀ columns fault, (run party t.knownColumns s st).1 = .ok columns →
      Bracket.resolve columns (.text text) = .error (.bracket fault) →
      (run party (t.query (.text text)) s st).1 = .ok none ∧
        ∀ sent ∈ queries party (t.query (.text text)) s st, sent = columnsQuery := by
  have hscanned := Bracket.scanned_pieces text
  refine ⟨Bracket.pieces text, fun ps' => Bracket.scanned_iff, hscanned.flatMap_written, ?_, ?_⟩
  · intro c hempty hc
    refine ⟨fun hknown => ?_, fun hunknown => ?_⟩
    · obtain ⟨texts, htexts, hresolve⟩ := Bracket.resolve_of_known hempty hc hscanned hknown
      exact ⟨texts, htexts, fun hd _ htexts' => (Bracket.rightUnique_replaces hd).forall₂ htexts' htexts,
        hresolve⟩
    · obtain ⟨before, name, after, hps, hbefore, hname⟩ := Bracket.exists_first_unknown hunknown
      rw [hps] at hscanned
      exact ⟨before, name, after, hps, hbefore, hname,
        Bracket.resolve_of_unknown hempty hc hscanned hbefore hname⟩
  · intro columns fault hcolumns hrefused
    obtain ⟨hnone, hsent⟩ := run_query_of_refused hcolumns hrefused rfl
    refine ⟨hnone, fun sent hmem => ?_⟩
    rw [hsent] at hmem
    exact eq_of_mem_queries_knownColumns hmem

open Sample in
/-- A bracket within a token, and brackets without a name: the first text has tokens for two headers, and the
token of the second one names none. -/
theorem query_translates_names :
    let party := Scripted.party fun _ => false
    let t := table (.int 30000)
    let st := Scripted.ofRows rows
    (∃ texts, List.Forall₂ (Bracket.Replaces Sample.columns) (Bracket.pieces "[Name]='[]'or[id]") texts ∧
      Bracket.resolve (some Sample.columns) (.text "[Name]='[]'or[id]") = .ok texts.flatten) ∧
    Bracket.resolve (some Sample.columns) (.text "[[id]") =
      .error (.bracket (.unknownHeader "[id" Sample.columns.headers)) ∧
    (run party (t.query (.text "[[id]")) session st).1 = .ok none ∧
      ∀ sent ∈ queries party (t.query (.text "[[id]")) session st, sent = columnsQuery := by
  intro party t st
  have hcodes : HasTextCodes Sample.columns :=
    List.forall_mem_cons.mpr ⟨⟨_, rfl⟩, List.forall_mem_singleton.mpr ⟨_, rfl⟩⟩
  have hknown : ∀ name, .token name ∈ Bracket.pieces "[Name]='[]'or[id]" →
      Bracket.HasHeader Sample.columns name := by
    have hpieces : Bracket.pieces "[Name]='[]'or[id]" = [.token "Name", .point (.char '='),
        .point (.char '\''), .point (.char '['), .point (.char ']'), .point (.char '\''),
        .point (.char 'o'), .point (.char 'r'), .token "id"] := by decide +kernel
    intro name hname
    rw [hpieces] at hname
    simp only [List.mem_cons, Bracket.Piece.token.injEq, reduceCtorEq, List.not_mem_nil, or_false,
      false_or] at hname
    rcases hname with rfl | rfl <;> decide
  obtain ⟨ps, hps, -, htranslates, -⟩ := query_translates party t session st "[Name]='[]'or[id]"
  obtain rfl := (hps _).mp (Bracket.scanned_pieces _)
  obtain ⟨texts, htexts, -, hresolve⟩ := (htranslates Sample.columns rfl hcodes).1 hknown
  have hrefused : Bracket.resolve (some Sample.columns) (.text "[[id]") =
      .error (.bracket (.unknownHeader "[id" Sample.columns.headers)) := by
    have hscanned : Bracket.Scanned "[[id]" ([] ++ .token "[id" :: []) :=
      Bracket.scanned_iff.mpr (by decide +kernel)
    have hunknown : ¬ Bracket.HasHeader Sample.columns "[id" := by decide
    exact Bracket.resolve_of_unknown rfl hcodes hscanned (fun _ h => absurd h List.not_mem_nil) hunknown
  obtain ⟨_, -, -, -, hfails⟩ := query_translates party t session st "[[id]"
  exact ⟨⟨texts, htexts, hresolve⟩, hrefused, hfails (some Sample.columns) _ rfl hrefused⟩

end RowStore.Table
