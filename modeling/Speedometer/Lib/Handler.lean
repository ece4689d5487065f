/-
  Speedometer.Lib.Handler

  Event handlers that call into code the model does not contain, and the rules
  for reasoning about them.

  A handler is a tree: it reads and writes its own variables, and goes on with
  whatever number a call returns.  `exec` follows the branch a list of return
  codes selects; what a call does to the world is a parameter.  `wp` is the
  weakest precondition over every return code the condition `ok` admits.
  `wp_sound` connects the two.

  What is asked of the calls themselves is a condition on the tree (`AllCalls`), on
  the world that records them (`wp_calls`), or on any other world (`wp_replay`).
-/

namespace Handler

/-- A program over variables `γ` that makes calls `κ`, each of which returns a
    number. -/
inductive Prog (γ κ α : Type) : Type
  | pure (a : α)
  | get (k : γ → Prog γ κ α)
  | modify (f : γ → γ) (next : Prog γ κ α)
  | call (c : κ) (k : Int → Prog γ κ α)
  /-- a loop that is never left -/
  | hang

variable {γ κ ω α β : Type}

namespace Prog

def bind : Prog γ κ α → (α → Prog γ κ β) → Prog γ κ β
  | .pure a, f => f a
  | .get k, f => .get fun g => (k g).bind f
  | .modify h next, f => .modify h (next.bind f)
  | .call c k, f => .call c fun rc => (k rc).bind f
  | .hang, _ => .hang

instance instMonad : Monad (Prog γ κ) where
  pure := Prog.pure
  bind := Prog.bind

end Prog

/-- The variables. -/
def vars : Prog γ κ γ := .get .pure

/-- An assignment. -/
def assign (f : γ → γ) : Prog γ κ Unit := .modify f (.pure ())

/-- A call, with the number it returns. -/
def call (c : κ) : Prog γ κ Int := .call c .pure

/-- A call whose return code is ignored. -/
def callVoid (c : κ) : Prog γ κ Unit := .call c fun _ => .pure ()

/-- A program run only under a condition. -/
def when (b : Bool) (p : Prog γ κ Unit) : Prog γ κ Unit := if b then p else .pure ()

/-! ## Execution -/

/-- How an execution ended: the value returned, or `none` from inside a loop that is
    never left, with the calls made on the way. -/
structure Outcome (γ κ ω α : Type) where
  val : Option α
  vars : γ
  world : ω
  calls : List (κ × Int)

/-- The execution that the given return codes select, if there is exactly one for each
    call. -/
def exec (effect : κ → Int → ω → ω) : Prog γ κ α → List Int → γ → ω → Option (Outcome γ κ ω α)
  | .pure a, [], g, w => some ⟨some a, g, w, []⟩
  | .hang, [], g, w => some ⟨none, g, w, []⟩
  | .pure _, _ :: _, _, _ | .hang, _ :: _, _, _ | .call _ _, [], _, _ => none
  | .get k, rcs, g, w => exec effect (k g) rcs g w
  | .modify f next, rcs, g, w => exec effect next rcs (f g) w
  | .call c k, rc :: rcs, g, w =>
      (exec effect (k rc) rcs g (effect c rc w)).map fun o => { o with calls := (c, rc) :: o.calls }

/-! ## Weakest preconditions -/

/-- What must hold before a program for `Q` to hold at its end, whatever the calls
    return among what `ok` admits; `Q none` is asked where the program never returns. -/
def wp (effect : κ → Int → ω → ω) (ok : κ → Int → Prop) :
    Prog γ κ α → (Option α → γ → ω → Prop) → γ → ω → Prop
  | .pure a, Q, g, w => Q (some a) g w
  | .get k, Q, g, w => wp effect ok (k g) Q g w
  | .modify f next, Q, g, w => wp effect ok next Q (f g) w
  | .call c k, Q, g, w => ∀ rc, ok c rc → wp effect ok (k rc) Q g (effect c rc w)
  | .hang, Q, g, w => Q none g w

section Rules

variable {effect : κ → Int → ω → ω} {ok : κ → Int → Prop} {g : γ} {w : ω}

/-- The condition after the first of two programs. -/
def andThen (effect : κ → Int → ω → ω) (ok : κ → Int → Prop) (f : α → Prog γ κ β)
    (Q : Option β → γ → ω → Prop) : Option α → γ → ω → Prop
  | some a, g, w => wp effect ok (f a) Q g w
  | none, g, w => Q none g w

@[simp] theorem andThen_some (f : α → Prog γ κ β) (Q : Option β → γ → ω → Prop) (a : α) :
    andThen effect ok f Q (some a) g w = wp effect ok (f a) Q g w := rfl

@[simp] theorem wp_pure (a : α) (Q : Option α → γ → ω → Prop) :
    wp effect ok (pure a : Prog γ κ α) Q g w = Q (some a) g w := rfl

@[simp] theorem wp_vars (Q : Option γ → γ → ω → Prop) :
    wp effect ok vars Q g w = Q (some g) g w := rfl

@[simp] theorem wp_assign (f : γ → γ) (Q : Option Unit → γ → ω → Prop) :
    wp effect ok (assign f) Q g w = Q (some ()) (f g) w := rfl

@[simp] theorem wp_call (c : κ) (Q : Option Int → γ → ω → Prop) :
    wp effect ok (call c) Q g w = ∀ rc, ok c rc → Q (some rc) g (effect c rc w) := rfl

@[simp] theorem wp_callVoid (c : κ) (Q : Option Unit → γ → ω → Prop) :
    wp effect ok (callVoid c) Q g w = ∀ rc, ok c rc → Q (some ()) g (effect c rc w) := rfl

@[simp] theorem wp_bind (p : Prog γ κ α) (f : α → Prog γ κ β) (Q : Option β → γ → ω → Prop) :
    wp effect ok (p >>= f) Q g w = wp effect ok p (andThen effect ok f Q) g w := by
  show wp effect ok (p.bind f) Q g w = _
  induction p generalizing g w with
  | pure a => rfl
  | get k ih => exact ih g
  | modify h next ih => exact ih
  | call c k ih =>
      simp only [Prog.bind, wp]
      exact forall_congr fun rc => implies_congr rfl (ih rc)
  | hang => rfl

theorem wp_ite {c : Prop} [Decidable c] {p q : Prog γ κ α} {Q : Option α → γ → ω → Prop}
    (hp : c → wp effect ok p Q g w) (hq : ¬c → wp effect ok q Q g w) :
    wp effect ok (if c then p else q) Q g w := by
  by_cases hc : c
  · rw [if_pos hc]
    exact hp hc
  · rw [if_neg hc]
    exact hq hc

theorem wp_when {b : Bool} {p : Prog γ κ Unit} {Q : Option Unit → γ → ω → Prop}
    (hp : b = true → wp effect ok p Q g w) (hq : b = false → Q (some ()) g w) :
    wp effect ok (when b p) Q g w :=
  wp_ite hp fun hb => hq (Bool.not_eq_true b ▸ hb)

/-- A weaker condition at the end. -/
theorem wp_mono {p : Prog γ κ α} {Q Q' : Option α → γ → ω → Prop}
    (hQ : ∀ o g w, Q o g w → Q' o g w) (h : wp effect ok p Q g w) : wp effect ok p Q' g w := by
  induction p generalizing g w with
  | pure a => exact hQ _ _ _ h
  | get k ih => exact ih g h
  | modify f next ih => exact ih h
  | call c k ih => exact fun rc hrc => ih rc (h rc hrc)
  | hang => exact hQ _ _ _ h

/-- A program whose return value is fixed. -/
theorem wp_return {p : Prog γ κ Unit} {a : α} {Q : Option α → γ → ω → Prop}
    (hp : wp effect ok p (fun o => Q (o.map fun _ => a)) g w) :
    wp effect ok (do p; return a) Q g w := by
  rw [wp_bind]
  refine wp_mono (fun o g w hQ => ?_) hp
  cases o with
  | none => exact hQ
  | some u => exact hQ

/-- An execution whose calls return what `ok` admits ends where the weakest
    precondition says. -/
theorem wp_sound {p : Prog γ κ α} {Q : Option α → γ → ω → Prop} {rcs : List Int}
    {o : Outcome γ κ ω α} (h : wp effect ok p Q g w) (hexec : exec effect p rcs g w = some o)
    (hok : ∀ c ∈ o.calls, ok c.1 c.2) : Q o.val o.vars o.world := by
  induction p generalizing rcs g w o with
  | pure a =>
      cases rcs with
      | nil =>
          simp only [exec, Option.some.injEq] at hexec
          exact hexec ▸ h
      | cons rc rcs => cases hexec
  | get k ih => exact ih g h hexec hok
  | modify f next ih => exact ih h hexec hok
  | call c k ih =>
      cases rcs with
      | nil => cases hexec
      | cons rc rcs =>
          simp only [exec, Option.map_eq_some_iff] at hexec
          obtain ⟨o', hexec', rfl⟩ := hexec
          have hrc : ok c rc := hok (c, rc) (List.mem_cons_self)
          have hrest : ∀ c ∈ o'.calls, ok c.1 c.2 := fun _ hc => hok _ (List.mem_cons_of_mem _ hc)
          show Q o'.val o'.vars o'.world
          exact ih rc (h rc hrc) hexec' hrest
  | hang =>
      cases rcs with
      | nil =>
          simp only [exec, Option.some.injEq] at hexec
          exact hexec ▸ h
      | cons rc rcs => cases hexec

end Rules

/-! ## Calls -/

/-- Every call a program can make meets a condition. -/
def AllCalls (P : κ → Prop) : Prog γ κ α → Prop
  | .pure _ | .hang => True
  | .get k => ∀ g, AllCalls P (k g)
  | .modify _ next => AllCalls P next
  | .call c k => P c ∧ ∀ rc, AllCalls P (k rc)

section Calls

variable {effect : κ → Int → ω → ω} {P : κ → Prop} {g : γ} {w : ω}

theorem allCalls_vars : AllCalls P (vars : Prog γ κ γ) := fun _ => trivial

theorem allCalls_assign (f : γ → γ) : AllCalls P (assign f : Prog γ κ Unit) := trivial

theorem allCalls_call {c : κ} (h : P c) : AllCalls P (call c : Prog γ κ Int) :=
  ⟨h, fun _ => trivial⟩

theorem allCalls_callVoid {c : κ} (h : P c) : AllCalls P (callVoid c : Prog γ κ Unit) :=
  ⟨h, fun _ => trivial⟩

theorem AllCalls.bind {p : Prog γ κ α} {f : α → Prog γ κ β} (hp : AllCalls P p)
    (hf : ∀ a, AllCalls P (f a)) : AllCalls P (p >>= f) := by
  show AllCalls P (p.bind f)
  induction p with
  | pure a => exact hf a
  | get k ih => exact fun g => ih g (hp g)
  | modify h next ih => exact ih hp
  | call c k ih => exact ⟨hp.1, fun rc => ih rc (hp.2 rc)⟩
  | hang => trivial

theorem AllCalls.ite {c : Prop} [Decidable c] {p q : Prog γ κ α} (hp : AllCalls P p)
    (hq : AllCalls P q) : AllCalls P (if c then p else q) := by
  split
  · exact hp
  · exact hq

theorem AllCalls.when {b : Bool} {p : Prog γ κ Unit} (hp : AllCalls P p) :
    AllCalls P (when b p) :=
  hp.ite trivial

/-- The calls an execution makes are among those the program can make. -/
theorem AllCalls.of_exec {p : Prog γ κ α} {rcs : List Int} {o : Outcome γ κ ω α}
    (h : AllCalls P p) (hexec : exec effect p rcs g w = some o) : ∀ c ∈ o.calls, P c.1 := by
  induction p generalizing rcs g w o with
  | pure a | hang =>
      cases rcs with
      | nil =>
          simp only [exec, Option.some.injEq] at hexec
          subst hexec
          exact nofun
      | cons rc rcs => cases hexec
  | get k ih => exact ih g (h g) hexec
  | modify f next ih => exact ih h hexec
  | call c k ih =>
      cases rcs with
      | nil => cases hexec
      | cons rc rcs =>
          simp only [exec, Option.map_eq_some_iff] at hexec
          obtain ⟨o', hexec', rfl⟩ := hexec
          intro c' hc'
          rcases List.mem_cons.mp hc' with rfl | hc'
          · exact h.1
          · exact ih rc (h.2 rc) hexec' c' hc'

/-- The effect of a call on the world that records the calls. -/
def recordCall (c : κ) (rc : Int) (calls : List (κ × Int)) : List (κ × Int) := calls ++ [(c, rc)]

/-- The world does not decide which branch is taken, so that every execution is one over
    any other world, in which the same calls have been made. -/
theorem exec_replay {υ : Type} {p : Prog γ κ α} {rcs : List Int} {o : Outcome γ κ ω α}
    (h : exec effect p rcs g w = some o) (effect' : κ → Int → υ → υ) (u : υ) :
    exec effect' p rcs g u =
      some ⟨o.val, o.vars, o.calls.foldl (fun u c => effect' c.1 c.2 u) u, o.calls⟩ := by
  induction p generalizing rcs g w o u with
  | pure a | hang =>
      cases rcs with
      | nil =>
          simp only [exec, Option.some.injEq] at h
          subst h
          rfl
      | cons rc rcs => cases h
  | get k ih => exact ih g h u
  | modify f next ih => exact ih h u
  | call c k ih =>
      cases rcs with
      | nil => cases h
      | cons rc rcs =>
          simp only [exec, Option.map_eq_some_iff] at h
          obtain ⟨o', h', rfl⟩ := h
          simp only [exec, ih rc h', Option.map_some, List.foldl_cons]

/-- The rule for what the calls of an execution do to another world. -/
theorem wp_replay {υ : Type} {effect' : κ → Int → υ → υ} {ok : κ → Int → Prop}
    {p : Prog γ κ α} {Q : Option α → γ → υ → Prop} {u : υ} {rcs : List Int}
    {o : Outcome γ κ ω α} (h : wp effect' ok p Q g u) (hexec : exec effect p rcs g w = some o)
    (hok : ∀ c ∈ o.calls, ok c.1 c.2) :
    Q o.val o.vars (o.calls.foldl (fun u c => effect' c.1 c.2 u) u) :=
  wp_sound h (exec_replay hexec effect' u) hok

theorem foldl_recordCall (calls calls' : List (κ × Int)) :
    calls'.foldl (fun cs c => recordCall c.1 c.2 cs) calls = calls ++ calls' := by
  induction calls' generalizing calls with
  | nil => simp
  | cons c calls' ih => rw [List.foldl_cons, ih, recordCall, List.append_assoc, List.singleton_append]

/-- The rule for what an execution returns and which calls it makes on the way. -/
theorem wp_calls {ok : κ → Int → Prop} {p : Prog γ κ α}
    {Q : Option α → γ → List (κ × Int) → Prop} {rcs : List Int} {o : Outcome γ κ ω α}
    (h : wp recordCall ok p Q g []) (hexec : exec effect p rcs g w = some o)
    (hok : ∀ c ∈ o.calls, ok c.1 c.2) : Q o.val o.vars o.calls := by
  have hQ := wp_replay h hexec hok
  rwa [foldl_recordCall] at hQ

/-- What every call keeps, an execution keeps. -/
theorem exec_keeps {I : ω → Prop} (hI : ∀ c rc w, I w → I (effect c rc w)) {p : Prog γ κ α}
    {rcs : List Int} {o : Outcome γ κ ω α} (h : exec effect p rcs g w = some o) (hw : I w) :
    I o.world := by
  have hworld : o.world = o.calls.foldl (fun w c => effect c.1 c.2 w) w := by
    have hreplay := exec_replay h effect w
    rw [h, Option.some.injEq] at hreplay
    exact congrArg Outcome.world hreplay
  rw [hworld]
  exact List.foldlRecOn o.calls _ hw fun w hw c _ => hI c.1 c.2 w hw

end Calls
end Handler
