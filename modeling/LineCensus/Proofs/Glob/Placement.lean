import LineCensus.Glob
import Mathlib.Data.List.Chain

/-!
# `Proofs.Glob.Placement` — where components stand in a pattern

Two stars are read only at the start of a pattern and behind a slash. So a token for components is the first
token of a pattern, or stands behind a slash or behind other components.

## Contents
- `WellPlaced`, no components anywhere else.
- `Reading.Placed`, the same of what is read of a pattern; `wellPlaced_of_compileFrom` and
  `wellPlaced_of_compile`.
-/

namespace LineCensus.Glob

/-! ## Where components stand -/

/-- May `next` stand behind `t`? Components may only behind a slash and behind other components. -/
def MayFollow (t next : Token) : Prop := next = .anyComponents → t = .literal '/' ∨ t = .anyComponents

/-- Components stand at the start and where else they may, and nowhere else. -/
def WellPlaced (ts : List Token) : Prop := ts.IsChain MayFollow

/-- What has been read is well placed, and where two stars may stand next, components may follow. -/
structure Reading.Placed (r : Reading) : Prop where
  chain : r.tokens.IsChain fun next t => MayFollow t next
  next : r.atComponent = true → ∀ t ∈ r.tokens.head?, t = .literal '/' ∨ t = .anyComponents

namespace Reading

variable {r : Reading}

theorem placed_start : start.Placed := ⟨.nil, fun _ _ h => by cases h⟩

theorem Placed.wellPlaced (h : r.Placed) : WellPlaced r.tokens.reverse := List.isChain_reverse.mpr h.chain

theorem Placed.push (h : r.Placed) {t : Token} (width : Nat) {last : Char}
    (ht : t = .anyComponents → r.atComponent = true)
    (hlast : last = '/' → t = .literal '/' ∨ t = .anyComponents) : (r.push t width last).Placed := by
  refine ⟨List.isChain_cons.mpr ⟨fun before hbefore hnext => h.next (ht hnext) before hbefore, h.chain⟩, ?_⟩
  intro hslash top htop
  cases htop
  exact hlast (eq_of_beq hslash)

theorem Placed.pushComponents (h : r.Placed) (hat : r.atComponent = true) (width : Nat) (last : Char) :
    (r.pushComponents width last).Placed := by
  unfold Reading.pushComponents
  split
  · rename_i t more htokens
    refine ⟨htokens ▸ h.chain, fun _ top htop => ?_⟩
    rw [htokens] at htop
    cases htop
    exact Or.inr rfl
  · exact h.push width (fun _ => hat) fun _ => Or.inr rfl

end Reading

theorem ne_anyComponents_of_readSet? {cs after : List Char} {t : Token} (h : readSet? cs = some (t, after)) :
    t ≠ .anyComponents := by
  unfold readSet? at h
  split at h
  · split at h
    · cases h
      nofun
    · cases h
  · cases h
  · split at h
    · cases h
      nofun
    · cases h
  · cases h

theorem wellPlaced_of_compileFrom {r : Reading} {cs : List Char} {ts : List Token} (hr : r.Placed)
    (h : compileFrom r cs = .ok ts) : WellPlaced ts := by
  fun_induction compileFrom r cs with
  | case1 r =>
    cases h
    exact hr.wellPlaced
  | case2 r rest ih => exact ih (hr.push 1 nofun (by decide)) h
  | case3 => cases h
  | case4 r hat _ =>
    cases h
    exact (hr.pushComponents hat 2 '*').wellPlaced
  | case5 r hat after _ ih => exact ih (hr.pushComponents hat 3 '/') h
  | case6 => cases h
  | case7 => cases h
  | case8 r rest _ _ ih => exact ih (hr.push 1 nofun (by decide)) h
  | case9 r rest t after hset ih =>
    have hbracket : ']' ≠ '/' := by decide
    exact ih (hr.push _ (fun ht => absurd ht (ne_anyComponents_of_readSet? hset)) fun hc => absurd hc hbracket) h
  | case10 => cases h
  | case11 r c rest _ _ _ _ _ ih => exact ih (hr.push 1 nofun fun hc => Or.inl (congrArg Token.literal hc)) h

/-- **A pattern that compiles is well placed.** -/
theorem wellPlaced_of_compile {pattern : String} {ts : List Token} (h : compile pattern = .ok ts) :
    WellPlaced ts :=
  wellPlaced_of_compileFrom Reading.placed_start h

end LineCensus.Glob
