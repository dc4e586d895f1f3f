/-
Pre- and postconditions of programs that share a world.

`Triple R P p ok error`: from any world with `P` the program is safe, `ok` holds of the
world when it returns and `error` when it raises.  What is said between two awaits must
outlive the other programs (`Rules.Stable`); an end has outlived them already, so the
rules for sequences and handlers ask nothing.

* `Triple.bind`, `Triple.handle`, `Triple.under` — sequences and handlers;
* `Triple.yields` — what is returned whatever the replies;
* `Triple.await` — one effect;
* `Triple.of_confined` — a program confined to effects that keep an assertion.
-/
import ExecutorService.Program

namespace Program

variable {E : Type → Type} {F X Y L W α β : Type} {R : Rules E F W}

/-- The other programs keep the assertion. -/
def Rules.Stable (R : Rules E F W) (P : W → Prop) : Prop :=
  ∀ w w', P w → R.rely w w' → P w'

/-- What holds of an end. -/
def Ends (ok : α → W → Prop) (error : X → W → Prop) : Except X α → W → Prop
  | .ok a, w => ok a w
  | .error x, w => error x w

/-- From a world with `P` the program is safe, and it ends as stated. -/
def Triple (R : Rules E F W) (P : W → Prop) (p : Program E F X α) (ok : α → W → Prop)
    (error : X → W → Prop) : Prop :=
  ∀ w, P w → Safe R (Ends ok error) p w

namespace Triple

variable {P P' : W → Prop} {p : Program E F X α} {ok ok' : α → W → Prop}
  {error error' : X → W → Prop}

theorem mono (h : Triple R P p ok error) (hpre : ∀ w, P' w → P w)
    (hok : ∀ a w, ok a w → ok' a w) (herror : ∀ x w, error x w → error' x w) :
    Triple R P' p ok' error' := by
  intro w hw
  refine (h w (hpre w hw)).mono ?_
  rintro (x | a) w' hend
  · exact herror x w' hend
  · exact hok a w' hend

theorem ret {a : α} (hstable : R.Stable (ok a)) (h : ∀ w, P w → ok a w) :
    Triple R P (.ret a : Program E F X α) ok error :=
  fun w hw w' hr => hstable w w' (h w hw) hr

theorem raise {x : X} (hstable : R.Stable (error x)) (h : ∀ w, P w → error x w) :
    Triple R P (.raise x : Program E F X α) ok error :=
  fun w hw w' hr => hstable w w' (h w hw) hr

theorem bind {M : α → W → Prop} {f : α → Program E F X β} {ok : β → W → Prop}
    (h : Triple R P p M error) (hf : ∀ a, Triple R (M a) (f a) ok error) :
    Triple R P (p >>= f) ok error := by
  intro w hw
  have hp := h w hw
  clear h hw
  induction p generalizing w with
  | ret a => exact hf a w (hp w (R.refl w))
  | raise x => exact fun w' hr => hp w' hr
  | call e k ih =>
    exact fun w' hr => ⟨(hp w' hr).1, fun r w'' hs => ih r w'' ((hp w' hr).2 r w'' hs)⟩

theorem handle {M : X → W → Prop} {g : X → Program E F Y α} {error : Y → W → Prop}
    (h : Triple R P p ok M) (hg : ∀ x, Triple R (M x) (g x) ok error) :
    Triple R P (p.handle g) ok error := by
  intro w hw
  have hp := h w hw
  clear h hw
  induction p generalizing w with
  | ret a => exact fun w' hr => hp w' hr
  | raise x => exact hg x w (hp w (R.refl w))
  | call e k ih =>
    exact fun w' hr => ⟨(hp w' hr).1, fun r w'' hs => ih r w'' ((hp w' hr).2 r w'' hs)⟩

theorem under {l : L} {error : X × L → W → Prop}
    (h : Triple R P p ok fun x => error (x, l)) : Triple R P (p.under l) ok error := by
  intro w hw
  have hp := h w hw
  clear h hw
  induction p generalizing w with
  | ret a => exact fun w' hr => hp w' hr
  | raise x => exact fun w' hr => hp w' hr
  | call e k ih =>
    exact fun w' hr => ⟨(hp w' hr).1, fun r w'' hs => ih r w'' ((hp w' hr).2 r w'' hs)⟩

/-- What is returned has a property that no reply changes. -/
theorem yields {V : α → Prop} (h : Triple R P p ok error) (hy : p.Yields V) :
    Triple R P p (fun a w => V a ∧ ok a w) error := by
  intro w hw
  have hp := h w hw
  clear h hw
  induction p generalizing w with
  | ret a => exact fun w' hr => ⟨hy, hp w' hr⟩
  | raise x => exact fun w' hr => hp w' hr
  | call e k ih =>
    exact fun w' hr => ⟨(hp w' hr).1, fun r w'' hs => ih r (hy r) w'' ((hp w' hr).2 r w'' hs)⟩

theorem await {e : E α} {error : F → W → Prop} (hP : R.Stable P)
    (hallowed : ∀ w, P w → R.allowed e w)
    (hok : ∀ w a w', P w → R.step e w (.ok a) w' → ok a w')
    (herror : ∀ w x w', P w → R.step e w (.error x) w' → error x w')
    (hokStable : ∀ a, R.Stable (ok a)) (herrorStable : ∀ x, R.Stable (error x)) :
    Triple R P (Program.await e) ok error := by
  intro w hw w' hr
  have hP' := hP w w' hw hr
  refine ⟨hallowed w' hP', ?_⟩
  rintro (x | a) w'' hs w''' hr'
  · exact herrorStable x w'' w''' (herror w' x w'' hP' hs) hr'
  · exact hokStable a w'' w''' (hok w' a w'' hP' hs) hr'

theorem of_confined {allow : ∀ {β : Type}, E β → Prop}
    {reply : ∀ {β : Type}, E β → Except F β → Prop} {ends : Except X α → Prop}
    (hP : R.Stable P)
    (hcall : ∀ {β : Type} {e : E β} {w : W}, allow e → P w → R.allowed e w ∧
      ∀ r w', R.step e w r w' → P w' ∧ reply e r)
    (h : p.Confined allow reply ends) :
    Triple R P p (fun a w => P w ∧ ends (.ok a)) fun x w => P w ∧ ends (.error x) := by
  intro w hw
  refine (Safe.of_confined hP hcall h hw).mono ?_
  rintro (x | a) w' hend
  · exact hend
  · exact hend

end Triple

end Program
