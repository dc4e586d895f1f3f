/-
Programs that await.

A `Program` is what a coroutine is to its scheduler: it has returned, has raised,
or waits for the reply to one effect, and a reply is a value or a failure.  Other
programs run while it waits, so what it knows about the shared world has to
survive them.  `Safe` says that, by recursion over the program: whatever the
others did in between (`rely`), the effect it issues next is `allowed`, and after
any reply the rest is safe again.

`Within`, `Confined` and `Yields` are what needs no world: every effect the program may issue is
one of a kind, whatever the replies, and what can be said of its end.

* `Within.cont`, `Confined.cont`, `Safe.cont` — one rule for sequencing and for handlers;
* `Yields.bind` — what a sequence of programs returns;
* `Safe.of_confined` — an assertion that the others and every effect of a kind keep is kept by
  the programs confined to that kind;
* `Safe.interfere` — a safe program stays safe while others run;
* `Safe.call_step` — what a scheduler needs to know about the next effect.
-/
import Mathlib.Init

/-- A program over the effects `E` that fail with `F`; it raises `X` or returns. -/
inductive Program (E : Type → Type) (F X α : Type) : Type 1
  | ret (a : α)
  | raise (x : X)
  | call {β : Type} (e : E β) (k : Except F β → Program E F X α)

namespace Program

variable {E : Type → Type} {F X Y α β : Type}

/-- What follows the end of a program, whichever it is. -/
def cont : Program E F X α → (Except X α → Program E F Y β) → Program E F Y β
  | ret a, k => k (.ok a)
  | raise x, k => k (.error x)
  | call e c, k => call e fun r => (c r).cont k

/-- The rest is done with the result. -/
def bind (p : Program E F X α) (f : α → Program E F X β) : Program E F X β :=
  p.cont fun
    | .ok a => f a
    | .error x => raise x

/-- `try: … except …`; the handler may raise something else. -/
def handle (p : Program E F X α) (h : X → Program E F Y α) : Program E F Y α :=
  p.cont fun
    | .ok a => ret a
    | .error x => h x

instance : Monad (Program E F X) where
  pure := ret
  bind := bind

/-- An awaited effect: its failure is raised. -/
def await (e : E α) : Program E F F α :=
  call e fun
    | .ok a => ret a
    | .error x => raise x

/-- `try: … finally: …`; the end of the first program is kept unless the last one raises. -/
def ensuring (p : Program E F X α) (q : Program E F X Unit) : Program E F X α :=
  p.cont fun
    | .ok a => q.bind fun _ => ret a
    | .error x => q.bind fun _ => raise x

/-- An awaited program whose failures carry the local state `l`. -/
def under {L : Type} (l : L) (p : Program E F X α) : Program E F (X × L) α :=
  p.handle fun x => raise (x, l)

/-! ### The effects of a program -/

/-- Every effect the program may issue is `ok`. -/
def Within (ok : ∀ {β : Type}, E β → Prop) : Program E F X α → Prop
  | ret _ => True
  | raise _ => True
  | call e k => ok e ∧ ∀ r, (k r).Within ok

section

variable {ok ok' : ∀ {β : Type}, E β → Prop}

theorem Within.mono {p : Program E F X α} (h : p.Within ok)
    (himp : ∀ {β : Type} {e : E β}, ok e → ok' e) : p.Within ok' := by
  induction p with
  | ret a => trivial
  | raise x => trivial
  | call e k ih => exact ⟨himp h.1, fun r => ih r (h.2 r)⟩

theorem Within.cont {p : Program E F X α} {k : Except X α → Program E F Y β}
    (h : p.Within ok) (hk : ∀ r, (k r).Within ok) : (p.cont k).Within ok := by
  induction p with
  | ret a => exact hk _
  | raise x => exact hk _
  | call e c ih => exact ⟨h.1, fun r => ih r (h.2 r)⟩

theorem Within.bind {p : Program E F X α} {f : α → Program E F X β} (h : p.Within ok)
    (hf : ∀ a, (f a).Within ok) : (p >>= f).Within ok := by
  refine Within.cont h ?_
  rintro (x | a)
  · trivial
  · exact hf a

theorem Within.handle {p : Program E F X α} {g : X → Program E F Y α} (h : p.Within ok)
    (hg : ∀ x, (g x).Within ok) : (p.handle g).Within ok := by
  refine Within.cont h ?_
  rintro (x | a)
  · exact hg x
  · trivial

theorem Within.await {e : E α} (h : ok e) : (await e : Program E F F α).Within ok := by
  refine ⟨h, ?_⟩
  rintro (x | a) <;> trivial

theorem Within.under {L : Type} {l : L} {p : Program E F X α} (h : p.Within ok) :
    (p.under l).Within ok :=
  h.handle fun _ => trivial

end

/-! ### The ends of a program -/

/-- Every effect the program may issue is `ok`, and its end has the property as long as every
effect gets a `reply` it can get. -/
def Confined (ok : ∀ {β : Type}, E β → Prop) (reply : ∀ {β : Type}, E β → Except F β → Prop)
    (post : Except X α → Prop) : Program E F X α → Prop
  | ret a => post (.ok a)
  | raise x => post (.error x)
  | call e k => ok e ∧ ∀ r, reply e r → (k r).Confined ok reply post

section

variable {ok : ∀ {β : Type}, E β → Prop} {reply : ∀ {β : Type}, E β → Except F β → Prop}
  {post : Except X α → Prop}

theorem Confined.cont {post' : Except Y β → Prop} {p : Program E F X α}
    {k : Except X α → Program E F Y β} (h : p.Confined ok reply post)
    (hk : ∀ r, post r → (k r).Confined ok reply post') : (p.cont k).Confined ok reply post' := by
  induction p with
  | ret a => exact hk _ h
  | raise x => exact hk _ h
  | call e c ih => exact ⟨h.1, fun r hr => ih r (h.2 r hr)⟩

theorem Confined.bind {post' : Except X β → Prop} {p : Program E F X α}
    {f : α → Program E F X β} (h : p.Confined ok reply post)
    (hok : ∀ a, post (.ok a) → (f a).Confined ok reply post')
    (herror : ∀ x, post (.error x) → post' (.error x)) :
    (p >>= f).Confined ok reply post' := by
  refine Confined.cont h ?_
  rintro (x | a) hr
  · exact herror x hr
  · exact hok a hr

theorem Confined.handle {post' : Except Y α → Prop} {p : Program E F X α}
    {g : X → Program E F Y α} (h : p.Confined ok reply post)
    (hok : ∀ a, post (.ok a) → post' (.ok a))
    (herror : ∀ x, post (.error x) → (g x).Confined ok reply post') :
    (p.handle g).Confined ok reply post' := by
  refine Confined.cont h ?_
  rintro (x | a) hr
  · exact herror x hr
  · exact hok a hr

theorem Confined.await {post : Except F α → Prop} {e : E α} (h : ok e)
    (hr : ∀ r, reply e r → post r) : (await e).Confined ok reply post := by
  refine ⟨h, ?_⟩
  rintro (x | a) h
  · exact hr _ h
  · exact hr _ h

end

/-! ### The values of a program -/

/-- Every value the program may return has the property. -/
def Yields (P : α → Prop) : Program E F X α → Prop
  | ret a => P a
  | raise _ => True
  | call _ k => ∀ r, (k r).Yields P

theorem Yields.any (p : Program E F X α) : p.Yields fun _ => True := by
  induction p with
  | ret a => trivial
  | raise x => trivial
  | call e k ih => exact ih

theorem Yields.bind {P : α → Prop} {Q : β → Prop} {p : Program E F X α}
    {f : α → Program E F X β} (h : p.Yields P) (hf : ∀ a, P a → (f a).Yields Q) :
    (p >>= f).Yields Q := by
  induction p with
  | ret a => exact hf a h
  | raise x => trivial
  | call e k ih => exact fun r => ih r (h r)

end Program

/-- How programs share a world: what the others may do to it, what an effect does
to it, and when an effect is allowed. -/
structure Program.Rules (E : Type → Type) (F W : Type) where
  rely : W → W → Prop
  refl : ∀ w, rely w w
  trans : ∀ {w w' w''}, rely w w' → rely w' w'' → rely w w''
  step : ∀ {β : Type}, E β → W → Except F β → W → Prop
  allowed : ∀ {β : Type}, E β → W → Prop

namespace Program

variable {E : Type → Type} {F X Y W α β : Type}

/-- Every effect of the program is allowed when it is issued, and `post` holds of
its end. -/
def Safe (R : Rules E F W) (post : Except X α → W → Prop) : Program E F X α → W → Prop
  | ret a, w => ∀ w', R.rely w w' → post (.ok a) w'
  | raise x, w => ∀ w', R.rely w w' → post (.error x) w'
  | call e k, w => ∀ w', R.rely w w' →
      R.allowed e w' ∧ ∀ r w'', R.step e w' r w'' → Safe R post (k r) w''

variable {R : Rules E F W} {post : Except X α → W → Prop}

theorem Safe.interfere {p : Program E F X α} {w w' : W} (h : Safe R post p w)
    (hr : R.rely w w') : Safe R post p w' := by
  cases p with
  | ret a => exact fun w'' hw => h w'' (R.trans hr hw)
  | raise x => exact fun w'' hw => h w'' (R.trans hr hw)
  | call e k => exact fun w'' hw => h w'' (R.trans hr hw)

/-- The next effect of a safe program. -/
theorem Safe.call_step {γ : Type} {e : E γ} {k : Except F γ → Program E F X α} {w : W}
    (h : Safe R post (call e k) w) :
    R.allowed e w ∧ ∀ r w', R.step e w r w' → Safe R post (k r) w' :=
  h w (R.refl w)

theorem Safe.mono {post' : Except X α → W → Prop} {p : Program E F X α} {w : W}
    (h : Safe R post p w) (himp : ∀ r w, post r w → post' r w) : Safe R post' p w := by
  induction p generalizing w with
  | ret a => exact fun w' hw => himp _ _ (h w' hw)
  | raise x => exact fun w' hw => himp _ _ (h w' hw)
  | call e k ih => exact fun w' hw => ⟨(h w' hw).1, fun r w'' hs => ih r ((h w' hw).2 r w'' hs)⟩

theorem Safe.cont {post' : Except Y β → W → Prop} {p : Program E F X α}
    {k : Except X α → Program E F Y β} {w : W} (h : Safe R post p w)
    (hk : ∀ r w', post r w' → Safe R post' (k r) w') : Safe R post' (p.cont k) w := by
  induction p generalizing w with
  | ret a => exact hk _ _ (h w (R.refl w))
  | raise x => exact hk _ _ (h w (R.refl w))
  | call e c ih => exact fun w' hw => ⟨(h w' hw).1, fun r w'' hs => ih r ((h w' hw).2 r w'' hs)⟩

theorem Safe.bind {post' : Except X β → W → Prop} {p : Program E F X α}
    {f : α → Program E F X β} {w : W} (h : Safe R post p w)
    (hok : ∀ a w', post (.ok a) w' → Safe R post' (f a) w')
    (herror : ∀ x w', post (.error x) w' → Safe R post' (raise x) w') :
    Safe R post' (p >>= f) w := by
  refine Safe.cont h ?_
  rintro (x | a) w' hp
  · exact herror x w' hp
  · exact hok a w' hp

theorem Safe.await {post : Except F α → W → Prop} {e : E α} {w : W}
    (hallowed : ∀ w', R.rely w w' → R.allowed e w')
    (hstep : ∀ w' r w'', R.rely w w' → R.step e w' r w'' →
      ∀ w''', R.rely w'' w''' → post r w''') :
    Safe R post (await e) w := by
  intro w' hw
  refine ⟨hallowed w' hw, ?_⟩
  rintro (x | a) w'' hs
  · exact hstep w' _ w'' hw hs
  · exact hstep w' _ w'' hw hs

/-- An assertion that the others keep and every effect of a kind keeps. -/
theorem Safe.of_confined {ok : ∀ {β : Type}, E β → Prop}
    {reply : ∀ {β : Type}, E β → Except F β → Prop} {ends : Except X α → Prop} {P : W → Prop}
    (hP : ∀ w w', P w → R.rely w w' → P w')
    (hcall : ∀ {β : Type} {e : E β} {w : W}, ok e → P w → R.allowed e w ∧
      ∀ r w', R.step e w r w' → P w' ∧ reply e r)
    {p : Program E F X α} (h : p.Confined ok reply ends) {w : W} (hw : P w) :
    Safe R (fun r w => P w ∧ ends r) p w := by
  induction p generalizing w with
  | ret a => exact fun w' hr => ⟨hP w w' hw hr, h⟩
  | raise x => exact fun w' hr => ⟨hP w w' hw hr, h⟩
  | call e k ih =>
    intro w' hr
    obtain ⟨hallowed, hstep⟩ := hcall h.1 (hP w w' hw hr)
    refine ⟨hallowed, fun r w'' hs => ?_⟩
    obtain ⟨hw'', hreply⟩ := hstep r w'' hs
    exact ih r (h.2 r hreply) hw''

/-- An awaited effect and what follows it, from an assertion the others keep. -/
theorem Safe.await_bind {P : W → Prop} {e : E α} {f : α → Program E F F β}
    {post : Except F β → W → Prop} {w : W} (hP : ∀ w w', P w → R.rely w w' → P w') (h : P w)
    (hallowed : ∀ w, P w → R.allowed e w)
    (hok : ∀ w a w', P w → R.step e w (.ok a) w' → Safe R post (f a) w')
    (herror : ∀ w x w', P w → R.step e w (.error x) w' → Safe R post (Program.raise x) w') :
    Safe R post (Program.await e >>= f) w := by
  intro w' hw
  have hP' := hP w w' h hw
  refine ⟨hallowed w' hP', ?_⟩
  rintro (x | a) w'' hs
  · exact herror w' x w'' hP' hs
  · exact hok w' a w'' hP' hs

end Program
