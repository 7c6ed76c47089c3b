import Bookshelf.Proofs.Grammar
import Bookshelf.Proofs.ParserMachine

namespace Bookshelf

/-!
# The parser follows the grammar

Over the tokens of a derivation the machine of the parser goes to the state
that holds its tree, so the parser accepts whatever the grammar derives.
Conversely every state that the machine reaches is made of derivations which
span the tokens read so far.
-/

namespace Grammar

open Expression

/-! ## Running over a derivation -/

mutual

theorem OrExpr.run_tokens : ∀ (e : OrExpr) (outer : List Due),
    ∃ h : Held, (ParseState.due outer .start).run e.tokens = .ok (.held outer h) ∧ h.tree = e.tree
  | .chain first more, outer => by
      obtain ⟨h, hrun, htree⟩ := OrExpr.run_moreTokens more outer ⟨none, first.tree⟩
      have hfirst : (ParseState.due outer .start).run first.tokens =
          .ok (.held outer ⟨none, first.tree⟩) := first.run_tokens outer none
      exact ⟨h, by rw [OrExpr.tokens, ParseState.run_append_of_run hfirst, hrun], htree⟩

theorem OrExpr.run_moreTokens : ∀ (es : List AndExpr) (outer : List Due) (h : Held),
    ∃ h' : Held, (ParseState.held outer h).run (OrExpr.moreTokens es) = .ok (.held outer h') ∧
      h'.tree = (OrExpr.trees es).foldl .or h.tree
  | [], _, h => ⟨h, rfl, rfl⟩
  | e :: es, outer, h => by
      obtain ⟨h', hrun, htree⟩ := OrExpr.run_moreTokens es outer ⟨some h.tree, e.tree⟩
      refine ⟨h', ?_, htree⟩
      have hor : (ParseState.held outer h).step .or = .ok (.due outer ⟨some h.tree, none, false⟩) :=
        rfl
      rw [OrExpr.moreTokens, ParseState.run_cons_of_step hor,
        ParseState.run_append_of_run (e.run_tokens outer (some h.tree)), hrun]

theorem AndExpr.run_tokens : ∀ (e : AndExpr) (outer : List Due) (alternatives : Option Expression),
    (ParseState.due outer ⟨alternatives, none, false⟩).run e.tokens =
      .ok (.held outer ⟨alternatives, e.tree⟩)
  | .chain first more, outer, alternatives => by
      rw [AndExpr.tokens, ParseState.run_append_of_run (first.run_tokens outer alternatives none),
        AndExpr.run_moreTokens more outer alternatives]
      rfl

theorem AndExpr.run_moreTokens : ∀ (es : List NotExpr) (outer : List Due)
    (alternatives : Option Expression) (factors : Expression),
    (ParseState.held outer ⟨alternatives, factors⟩).run (AndExpr.moreTokens es) =
      .ok (.held outer ⟨alternatives, (AndExpr.trees es).foldl .and factors⟩)
  | [], _, _, _ => rfl
  | e :: es, outer, alternatives, factors => by
      have hand : (ParseState.held outer ⟨alternatives, factors⟩).step .and =
          .ok (.due outer ⟨alternatives, some factors, false⟩) := rfl
      rw [AndExpr.moreTokens, ParseState.run_cons_of_step hand,
        ParseState.run_append_of_run (e.run_tokens outer alternatives (some factors)),
        AndExpr.run_moreTokens es outer alternatives]
      rfl

theorem NotExpr.run_tokens : ∀ (n : NotExpr) (outer : List Due)
    (alternatives factors : Option Expression),
    (ParseState.due outer ⟨alternatives, factors, false⟩).run n.tokens =
      .ok (.held outer ⟨alternatives, join .and factors n.tree⟩)
  | .not p, outer, alternatives, factors => by
      have hnot : (ParseState.due outer ⟨alternatives, factors, false⟩).step .not =
          .ok (.due outer ⟨alternatives, factors, true⟩) := rfl
      rw [NotExpr.tokens, ParseState.run_cons_of_step hnot, p.run_tokens outer]
      rfl
  | .bare p, outer, alternatives, factors => p.run_tokens outer ⟨alternatives, factors, false⟩

theorem Primary.run_tokens : ∀ (p : Primary) (outer : List Due) (d : Due),
    (ParseState.due outer d).run p.tokens = .ok (.held outer (d.take p.tree))
  | .group e, outer, d => by
      obtain ⟨h, hrun, htree⟩ := e.run_tokens (d :: outer)
      have hopening : (ParseState.due outer d).step .opening = .ok (.due (d :: outer) .start) := rfl
      rw [Primary.tokens, ParseState.run_cons_of_step hopening,
        ParseState.run_append_of_run hrun, Primary.tree, ← htree]
      rfl
  | .genre literal name known, outer, d => by
      have hgenre : (ParseState.due outer d).step (.genre literal) =
          .ok (.held outer (d.take (.genre name))) := by simp [ParseState.step, known]
      rw [Primary.tokens, ParseState.run_cons_of_step hgenre, Primary.tree]
      rfl

end

/-- The parser accepts the tokens of a derivation, with its tree. -/
theorem OrExpr.parseTokens_tokens (d : OrExpr) : parseTokens d.tokens = .ok d.tree := by
  obtain ⟨h, hrun, htree⟩ := d.run_tokens []
  have hstart : ParseState.start.run d.tokens = .ok (.held [] h) := hrun
  rw [parseTokens_eq_run, hstart, ← htree]
  rfl

/-! ## The derivations behind a state -/

/-- Continues a chain of *or* by one more operand, or starts it. -/
def OrExpr.extend : Option OrExpr → AndExpr → OrExpr
  | none, e => .chain e []
  | some (.chain first more), e => .chain first (more ++ [e])

def AndExpr.extend : Option AndExpr → NotExpr → AndExpr
  | none, e => .chain e []
  | some (.chain first more), e => .chain first (more ++ [e])

/-- The tokens before the next operand of a chain of *or*. -/
def OrExpr.tokensBefore : Option OrExpr → List (Token Literal)
  | none => []
  | some e => e.tokens ++ [.or]

def AndExpr.tokensBefore : Option AndExpr → List (Token Literal)
  | none => []
  | some e => e.tokens ++ [.and]

@[simp] theorem OrExpr.tokens_extend (l : Option OrExpr) (e : AndExpr) :
    (OrExpr.extend l e).tokens = OrExpr.tokensBefore l ++ e.tokens := by
  rcases l with _ | ⟨first, more⟩
  · simp [extend, tokensBefore]
  · simp [extend, tokensBefore, moreTokens_eq_flatMap]

@[simp] theorem AndExpr.tokens_extend (l : Option AndExpr) (e : NotExpr) :
    (AndExpr.extend l e).tokens = AndExpr.tokensBefore l ++ e.tokens := by
  rcases l with _ | ⟨first, more⟩
  · simp [extend, tokensBefore]
  · simp [extend, tokensBefore, moreTokens_eq_flatMap]

@[simp] theorem OrExpr.tree_extend (l : Option OrExpr) (e : AndExpr) :
    (OrExpr.extend l e).tree = join .or (l.map OrExpr.tree) e.tree := by
  rcases l with _ | ⟨first, more⟩
  · rfl
  · simp [extend, trees_eq_map, join]

@[simp] theorem AndExpr.tree_extend (l : Option AndExpr) (e : NotExpr) :
    (AndExpr.extend l e).tree = join .and (l.map AndExpr.tree) e.tree := by
  rcases l with _ | ⟨first, more⟩
  · rfl
  · simp [extend, trees_eq_map, join]

/-- Derivations of what a level has read when an operand is due. -/
structure Pending where
  alternatives : Option OrExpr
  factors : Option AndExpr
  negated : Bool

namespace Pending

def tokens (p : Pending) : List (Token Literal) :=
  OrExpr.tokensBefore p.alternatives ++ AndExpr.tokensBefore p.factors ++
    if p.negated then [.not] else []

def due (p : Pending) : Due :=
  ⟨p.alternatives.map OrExpr.tree, p.factors.map AndExpr.tree, p.negated⟩

def operand (p : Pending) (x : Primary) : NotExpr :=
  if p.negated then .not x else .bare x

def take (p : Pending) (x : Primary) : AndExpr :=
  AndExpr.extend p.factors (p.operand x)

theorem tokens_take (p : Pending) (x : Primary) :
    OrExpr.tokensBefore p.alternatives ++ (p.take x).tokens = p.tokens ++ x.tokens := by
  cases h : p.negated <;> simp [take, operand, tokens, h]

theorem due_take (p : Pending) (x : Primary) :
    p.due.take x.tree = ⟨p.alternatives.map OrExpr.tree, (p.take x).tree⟩ := by
  cases h : p.negated <;> simp [Due.take, due, take, operand, h]

end Pending

/-- The tokens up to the last of the parentheses that are open. -/
def openTokens : List Pending → List (Token Literal)
  | [] => []
  | p :: outer => openTokens outer ++ p.tokens ++ [.opening]

/-- The state is made of derivations that span the tokens `ts`. -/
def Spans (ts : List (Token Literal)) : ParseState → Prop
  | .due outer d => ∃ (ps : List Pending) (p : Pending),
      outer = ps.map Pending.due ∧ d = p.due ∧ ts = openTokens ps ++ p.tokens
  | .held outer h => ∃ (ps : List Pending) (l : Option OrExpr) (f : AndExpr),
      outer = ps.map Pending.due ∧ h = ⟨l.map OrExpr.tree, f.tree⟩ ∧
        ts = openTokens ps ++ OrExpr.tokensBefore l ++ f.tokens

theorem spans_start : Spans [] ParseState.start :=
  ⟨[], ⟨none, none, false⟩, rfl, rfl, rfl⟩

theorem spans_take (ps : List Pending) (p : Pending) (x : Primary) :
    Spans (openTokens ps ++ p.tokens ++ x.tokens)
      (.held (ps.map Pending.due) (p.due.take x.tree)) := by
  refine ⟨ps, p.alternatives, p.take x, rfl, p.due_take x, ?_⟩
  rw [List.append_assoc, List.append_assoc, p.tokens_take x]

theorem Spans.step {ts : List (Token Literal)} {s u : ParseState} {t : Token Literal}
    (h : Spans ts s) (hu : s.step t = .ok u) : Spans (ts ++ [t]) u := by
  cases s with
  | due outer d =>
      obtain ⟨ps, p, rfl, rfl, rfl⟩ := h
      cases t with
      | genre g =>
          cases hg : g.canonical with
          | none => simp [ParseState.step, hg] at hu
          | some name =>
              obtain rfl : .held (ps.map Pending.due) (p.due.take (.genre name)) = u := by
                simpa [ParseState.step, hg] using hu
              exact spans_take ps p (.genre g name hg)
      | opening =>
          obtain rfl : .due (p.due :: ps.map Pending.due) .start = u := Except.ok.inj hu
          exact ⟨p :: ps, ⟨none, none, false⟩, rfl, rfl, by simp [openTokens, Pending.tokens,
            OrExpr.tokensBefore, AndExpr.tokensBefore]⟩
      | not =>
          cases hn : p.negated with
          | true => simp [ParseState.step, Pending.due, hn] at hu
          | false =>
              obtain rfl : .due (ps.map Pending.due) { p.due with negated := true } = u := by
                simpa [ParseState.step, Pending.due, hn] using hu
              exact ⟨ps, { p with negated := true }, rfl, rfl, by simp [Pending.tokens, hn]⟩
      | and | or | closing => simp [ParseState.step] at hu
  | held outer h =>
      obtain ⟨ps, l, f, rfl, rfl, rfl⟩ := h
      cases t with
      | and =>
          obtain rfl : .due (ps.map Pending.due) ⟨l.map OrExpr.tree, some f.tree, false⟩ = u :=
            Except.ok.inj hu
          exact ⟨ps, ⟨l, some f, false⟩, rfl, rfl, by simp [Pending.tokens, AndExpr.tokensBefore]⟩
      | or =>
          obtain rfl : .due (ps.map Pending.due)
              ⟨some (join .or (l.map OrExpr.tree) f.tree), none, false⟩ = u := Except.ok.inj hu
          refine ⟨ps, ⟨some (OrExpr.extend l f), none, false⟩, rfl, by simp [Pending.due], ?_⟩
          simp [Pending.tokens, OrExpr.tokensBefore, AndExpr.tokensBefore]
      | closing =>
          cases ps with
          | nil => simp [ParseState.step] at hu
          | cons p ps =>
              obtain rfl : .held (ps.map Pending.due)
                  (p.due.take (join .or (l.map OrExpr.tree) f.tree)) = u := Except.ok.inj hu
              rw [← OrExpr.tree_extend]
              have hts : openTokens (p :: ps) ++ OrExpr.tokensBefore l ++ f.tokens ++ [.closing] =
                  openTokens ps ++ p.tokens ++ (Primary.group (OrExpr.extend l f)).tokens := by
                simp [openTokens]
              rw [hts]
              exact spans_take ps p (.group (OrExpr.extend l f))
      | genre g | opening | not => cases ps <;> simp [ParseState.step] at hu

theorem Spans.run {ts us : List (Token Literal)} {s u : ParseState} (h : Spans ts s)
    (hu : s.run us = .ok u) : Spans (ts ++ us) u := by
  induction us generalizing ts s with
  | nil =>
      obtain rfl : s = u := Except.ok.inj hu
      simpa using h
  | cons t us ih =>
      rw [ParseState.run_cons] at hu
      obtain ⟨v, hv, hu⟩ := bind_eq_ok_iff.mp hu
      simpa using ih (h.step hv) hu

theorem derives_of_parseTokens {ts : List (Token Literal)} {t : Expression}
    (h : parseTokens ts = .ok t) : Derives ts t := by
  rw [parseTokens_eq_run] at h
  obtain ⟨s, hs, hfinish⟩ := bind_eq_ok_iff.mp h
  have hspans : Spans ts s := spans_start.run hs
  match s with
  | .due outer d => simp [ParseState.finish] at hfinish
  | .held (_ :: _) held => simp [ParseState.finish] at hfinish
  | .held [] held =>
      obtain ⟨ps, l, f, hps, rfl, rfl⟩ := hspans
      obtain rfl : ps = [] := by simpa using hps.symm
      obtain rfl : join .or (l.map OrExpr.tree) f.tree = t := Except.ok.inj hfinish
      exact ⟨OrExpr.extend l f, by simp [openTokens], by simp⟩

/-- The parser accepts exactly what the grammar derives, and there is only one
derivation to find. -/
theorem parseTokens_ok_iff_derives (ts : List (Token Literal)) :
    (∀ t, parseTokens ts = .ok t ↔ Derives ts t) ∧ {d : OrExpr | d.tokens = ts}.Subsingleton := by
  refine ⟨fun t => ⟨derives_of_parseTokens, ?_⟩, ?_⟩
  · rintro ⟨d, rfl, rfl⟩
    exact d.parseTokens_tokens
  · intro d hd d' hd'
    exact OrExpr.tokens_inj (hd.trans hd'.symm)

end Grammar

end Bookshelf
