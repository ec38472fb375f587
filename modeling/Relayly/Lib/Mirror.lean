import Relayly.Lib.Run

/-!
# A value and the client that follows it

A server keeps a value. A client that connects is sent a snapshot of it, and while it is connected
each change comes with a frame; frames arrive in order, and those in flight are lost when the
connection drops. While no client is connected the value changes without notice.

A frame in flight carries the value as of which it was sent, and `heard` is the one of the last
frame the client handled. No step of the client reads either.
-/

namespace Mirror

variable {V F M A B : Type*}

/-- `conn` holds the frames in flight, and is `none` while the client is not connected. -/
structure State (V F M : Type*) where
  value : V
  heard : V
  conn : Option (List (F × V)) := none
  client : M

inductive Label (V F A B : Type*)
  | connect (frame : F)
  | drop
  | tell (frame : F) (value : V)
  | change (value : V)
  | handle (input : A)
  | act (action : B)

/-- What the server sends, how the value changes, and what the client does: `handle` with a frame,
given what else it finds, and `act` of its own accord. -/
structure Protocol (V F M A B : Type*) where
  snapshot : V → F → Bool
  tells : V → F → V → Bool
  changes : V → V → Bool
  handle : M → A → F → Option M
  act : M → B → Option M

namespace Protocol

variable (P : Protocol V F M A B)

def step (s : State V F M) : Label V F A B → Option (State V F M)
  | .connect frame =>
    match s.conn with
    | none =>
      if P.snapshot s.value frame then some { s with conn := some [(frame, s.value)] } else none
    | some _ => none
  | .drop => s.conn.map fun _ => { s with conn := none }
  | .tell frame value =>
    match s.conn with
    | none => none
    | some frames =>
      if P.tells s.value frame value then
        some { s with value, conn := some (frames ++ [(frame, value)]) }
      else none
  | .change value =>
    match s.conn with
    | none => if P.changes s.value value then some { s with value } else none
    | some _ => none
  | .handle input =>
    match s.conn with
    | some ((frame, heard) :: frames) =>
      (P.handle s.client input frame).map fun client =>
        { s with heard, conn := some frames, client }
    | _ => none
  | .act action => (P.act s.client action).map fun client => { s with client }

/-- The frames tell, one after the other, how the value came to be what it is. -/
def Leads (value : V) : V → List (F × V) → Prop
  | v, [] => v = value
  | v, (frame, v') :: frames => P.tells v frame v' = true ∧ Leads value v' frames

/-- A frame that may reach a client which has last heard of `v`. -/
def Sent (v : V) (frame : F) (v' : V) : Prop :=
  P.tells v frame v' = true ∨ P.snapshot v' frame = true

/-- What is in flight goes on from what the client has heard, or starts over with a snapshot. -/
def Ordered (s : State V F M) : Prop :=
  match s.conn with
  | none => True
  | some [] => s.heard = s.value
  | some ((frame, v) :: frames) => P.Sent s.heard frame v ∧ P.Leads s.value v frames

variable {P} {s s' t : State V F M}

/-- The steps, one constructor for each label. -/
inductive Steps (P : Protocol V F M A B) : State V F M → Label V F A B → State V F M → Prop
  | connect {value heard : V} {client : M} {frame : F} (h : P.snapshot value frame = true) :
    P.Steps ⟨value, heard, none, client⟩ (.connect frame)
      ⟨value, heard, some [(frame, value)], client⟩
  | drop {value heard : V} {client : M} {frames : List (F × V)} :
    P.Steps ⟨value, heard, some frames, client⟩ .drop ⟨value, heard, none, client⟩
  | tell {value heard value' : V} {client : M} {frames : List (F × V)} {frame : F}
    (h : P.tells value frame value' = true) :
    P.Steps ⟨value, heard, some frames, client⟩ (.tell frame value')
      ⟨value', heard, some (frames ++ [(frame, value')]), client⟩
  | change {value heard value' : V} {client : M} (h : P.changes value value' = true) :
    P.Steps ⟨value, heard, none, client⟩ (.change value') ⟨value', heard, none, client⟩
  | handle {value heard v : V} {client client' : M} {frames : List (F × V)} {frame : F} {input : A}
    (h : P.handle client input frame = some client') :
    P.Steps ⟨value, heard, some ((frame, v) :: frames), client⟩ (.handle input)
      ⟨value, v, some frames, client'⟩
  | act {value heard : V} {conn : Option (List (F × V))} {client client' : M} {action : B}
    (h : P.act client action = some client') :
    P.Steps ⟨value, heard, conn, client⟩ (.act action) ⟨value, heard, conn, client'⟩

theorem steps_of_step {l : Label V F A B} (h : P.step s l = some s') : P.Steps s l s' := by
  obtain ⟨value, heard, conn, client⟩ := s
  cases l with
  | connect frame =>
    simp only [step] at h
    split at h
    · split_ifs at h with hs
      obtain rfl := Option.some.inj h
      exact .connect hs
    · cases h
  | drop =>
    obtain ⟨frames, rfl, rfl⟩ := Option.map_eq_some_iff.1 h
    exact .drop
  | tell frame value' =>
    simp only [step] at h
    split at h
    · cases h
    · split_ifs at h with ht
      obtain rfl := Option.some.inj h
      exact .tell ht
  | change value' =>
    simp only [step] at h
    split at h
    · split_ifs at h with hv
      obtain rfl := Option.some.inj h
      exact .change hv
    · cases h
  | handle input =>
    simp only [step] at h
    split at h
    · obtain ⟨client', hm, rfl⟩ := Option.map_eq_some_iff.1 h
      exact .handle hm
    · cases h
  | act action =>
    obtain ⟨client', hm, rfl⟩ := Option.map_eq_some_iff.1 h
    exact .act hm

theorem Leads.snoc {value value' : V} {frame : F} (h : P.tells value frame value' = true) :
    ∀ {v : V} {frames : List (F × V)}, P.Leads value v frames →
      P.Leads value' v (frames ++ [(frame, value')])
  | _, [], hv => ⟨hv ▸ h, rfl⟩
  | _, _ :: _, hv => ⟨hv.1, hv.2.snoc h⟩

theorem Ordered.tell {value heard value' : V} {client : M} {frame : F}
    (h : P.tells value frame value' = true) : ∀ {frames : List (F × V)},
      P.Ordered ⟨value, heard, some frames, client⟩ →
      P.Ordered ⟨value', heard, some (frames ++ [(frame, value')]), client⟩
  | [], ho => ⟨.inl ((show heard = value from ho) ▸ h), rfl⟩
  | _ :: _, ho => ⟨ho.1, ho.2.snoc h⟩

theorem Leads.ordered {value heard : V} {client : M} : ∀ {frames : List (F × V)},
    P.Leads value heard frames → P.Ordered ⟨value, heard, some frames, client⟩
  | [], h => h
  | _ :: _, h => ⟨.inl h.1, h.2⟩

theorem Ordered.step (h : P.Ordered s) {l : Label V F A B} (hstep : P.step s l = some s') :
    P.Ordered s' := by
  cases steps_of_step hstep with
  | connect hs => exact ⟨.inr hs, rfl⟩
  | drop | change => trivial
  | tell ht => exact h.tell ht
  | handle => exact h.2.ordered
  | act => exact h

/-- A relation between the client and what it has heard that its own actions keep, and that each
frame it handles keeps where the condition is met, holds along a run that meets it. -/
theorem run_mirrors {R : M → V → Prop} {cond : State V F M → Label V F A B → Prop}
    (hact : ∀ m b m' v, R m v → P.act m b = some m' → R m' v)
    (hhandle : ∀ s a frame v frames m', s.conn = some ((frame, v) :: frames) →
      R s.client s.heard → P.Sent s.heard frame v → cond s (.handle a) →
      P.handle s.client a frame = some m' → R m' v)
    (as : List (Label V F A B)) (hR : R s.client s.heard) (hc : s.conn = none)
    (hm : Lts.Meets P.step cond s as) (hrun : Lts.run P.step s as = some t) :
    R t.client t.heard ∧ P.Ordered t := by
  refine Lts.run_inv (I := fun s => R s.client s.heard ∧ P.Ordered s) ?_ as
    ⟨hR, by simp [Ordered, hc]⟩ hm hrun
  rintro s l s' ⟨hR, ho⟩ hcond hstep
  refine ⟨?_, ho.step hstep⟩
  cases steps_of_step hstep with
  | connect | drop | tell | change => exact hR
  | handle hm' => exact hhandle _ _ _ _ _ _ rfl hR ho.1 hcond hm'
  | act hm' => exact hact _ _ _ _ hR hm'

end Protocol

end Mirror
