import MiniContainer.Confinement
import MiniContainer.MountTable

/-!
# The mounts of a container

`CONTAINER_NAMESPACES` gives every container a namespace of mounts of its own, with a copy
of the mounts of the host. Most hosts share their mounts, and then the copies are peers:
what is mounted on one of them appears on the other. So the first thing that
`setup_container_filesystem` does is to make all of them private, and only then it mounts
`/proc`, `/sys`, `/tmp` and `/dev` over those of the host.

Several containers begin, run and end next to one another and next to the host, where
everybody may mount and unmount what they like, in any order, and every call of a
container may be refused. Over all interleavings:

* the host has the mounts that it would have without any container (`host_undisturbed`);
* and from the moment a container executes its command it has the mounts that its own
  processes make (`container_undisturbed`).
-/

open Paths (Place)
open CText
open MountTable

/-! ## The host and the containers -/

/-- The mounts of all namespaces, of which the first is that of the host, and what is left
to do in the first process of each container. -/
structure MountWorld where
  tables : MountTable CStr
  child : ℕ → Option (ChildProgram ChildEnd)

/-- The host, with no container. -/
def MountWorld.before (mounts : List (Mount CStr)) : MountWorld where
  tables := Function.update (fun _ => []) 0 mounts
  child _ := none

/-- **What the kernel answers** to the calls of `container_child`, and what they do.
What is mounted goes to wherever its path leads. -/
inductive MountAnswers (t : MountTable CStr) (n : ℕ) :
    (op : ChildCall) → op.Answer → MountTable CStr → Prop
  | refused {source : Option CStr} {target : CStr} {fstype : Option CStr} {flags : ℕ}
      {answer : MountResult} (hanswer : answer ≠ .mounted) :
      MountAnswers t n (.mount source target fstype flags) answer t
  | privates :
      MountAnswers t n (.mount none ['/'] none privateFlags) MountResult.mounted
        (MountTable.apply t n 0 .makeAllPrivate)
  | mounts {source target fstype : CStr} {flags g' : ℕ} {m : Mount CStr} {point : Place}
      (hallowed : Allowed t n g' (.mount m point fstype)) :
      MountAnswers t n (.mount (some source) target (some fstype) flags) MountResult.mounted
        (MountTable.apply t n g' (.mount m point fstype))
  | execvp {command : List (Option CStr)} (ok : Bool) :
      MountAnswers t n (.execvp command) ok t

/-- What can happen next. -/
inductive MountEvent
  /-- Somebody on the host changes its mounts. -/
  | host (c : Call CStr) (g' : ℕ)
  /-- A container is started. -/
  | cloned (n : ℕ)
  /-- Its first process makes a call. -/
  | child (n : ℕ)
  /-- The command of a container, or a process of it, changes mounts. -/
  | command (n : ℕ)
  /-- All its processes have ended. -/
  | ended (n : ℕ)

/-- The namespace in which it happens. -/
def MountEvent.ns : MountEvent → ℕ
  | host _ _ => 0
  | cloned n | child n | command n | ended n => n

/-- **A step.** -/
inductive MountWorld.Step (s : MountWorld) : MountEvent → MountWorld → Prop
  | host {c : Call CStr} {g' : ℕ} (hallowed : Allowed s.tables 0 g' c) :
      Step s (.host c g') { s with tables := MountTable.apply s.tables 0 g' c }
  | cloned {n : ℕ} (hn : n ≠ 0) (hchild : s.child n = none) (command : List (Option CStr)) :
      Step s (.cloned n)
        { tables := Function.update s.tables n (s.tables 0)
          child := Function.update s.child n (some (containerChild command)) }
  | child {n : ℕ} {op : ChildCall} {next : op.Answer → ChildProgram ChildEnd}
      (hchild : s.child n = some (.call op next)) {answer : op.Answer} {t : MountTable CStr}
      (hanswer : MountAnswers s.tables n op answer t) :
      Step s (.child n) { tables := t, child := Function.update s.child n (some (next answer)) }
  | command {n : ℕ} (hchild : s.child n = some (.ret .executed)) {c : Call CStr} {g' : ℕ}
      (hallowed : Allowed s.tables n g' c) :
      Step s (.command n) { s with tables := MountTable.apply s.tables n g' c }
  | ended {n : ℕ} {e : ChildEnd} (hchild : s.child n = some (.ret e)) :
      Step s (.ended n)
        { tables := Function.update s.tables n []
          child := Function.update s.child n (some (.ret .exited)) }

/-! ## What is so in every interleaving -/

/-- **The invariant**: a container has made no call yet, is separate from all other
namespaces, or makes no call any more. -/
structure MountWorld.Inv (s : MountWorld) : Prop where
  host : s.child 0 = none
  child : ∀ n p, s.child n = some p →
    (∃ command, p = containerChild command) ∨ Separate s.tables n ∨ p = .ret .exited

section

variable {s s' : MountWorld} {e : MountEvent} {n k : ℕ}

theorem MountWorld.Inv.ne_zero (h : s.Inv) {p : ChildProgram ChildEnd}
    (hchild : s.child n = some p) : n ≠ 0 := by
  rintro rfl
  rw [h.host] at hchild
  cases hchild

/-- A container that executes its command is separate. -/
theorem MountWorld.Inv.separate (h : s.Inv) (hchild : s.child n = some (.ret .executed)) :
    Separate s.tables n := by
  rcases h.child n _ hchild with ⟨command, heq⟩ | hsep | heq
  · cases heq
  · exact hsep
  · cases heq

/-- Where the mounts cannot be made private, the child exits. -/
theorem containerChild_first (command : List (Option CStr)) :
    ∃ next : MountResult → ChildProgram ChildEnd,
      containerChild command = .call (.mount none ['/'] none privateFlags) next ∧
        ∀ answer, answer ≠ .mounted → next answer = .ret .exited := by
  refine ⟨_, rfl, fun answer hanswer => ?_⟩
  cases answer with
  | mounted => exact absurd rfl hanswer
  | busy | failed => rfl

/-- **The first call**: the mounts become private, or the child exits. -/
theorem first_call {command : List (Option CStr)} {op : ChildCall}
    {next : op.Answer → ChildProgram ChildEnd} {answer : op.Answer} {t t' : MountTable CStr}
    (heq : containerChild command = .call op next) (hanswer : MountAnswers t n op answer t') :
    (t' = t ∧ next answer = .ret .exited) ∨ t' = MountTable.apply t n 0 .makeAllPrivate := by
  obtain ⟨next, hfirst, hrefused⟩ := containerChild_first command
  rw [hfirst] at heq
  cases heq
  cases hanswer with
  | refused hanswer => exact Or.inl ⟨rfl, hrefused _ hanswer⟩
  | privates => exact Or.inr rfl

/-- **A step changes no other namespace**, unless it is one of the host. -/
theorem MountWorld.Step.tables_of_ne (hinv : s.Inv) (hstep : s.Step e s') (hk : k ≠ e.ns)
    (h : Separate s.tables k ∨ k = 0) : s'.tables k = s.tables k := by
  cases hstep with
  | host hallowed => exact (h.resolve_right hk).apply_self hallowed (Ne.symm hk)
  | cloned | ended => exact Function.update_of_ne hk ..
  | command hchild hallowed => exact (hinv.separate hchild).apply_of_ne hallowed hk
  | @child n op next hchild answer t hanswer =>
    rcases hinv.child n _ hchild with ⟨command, heq⟩ | hsep | heq
    · rcases first_call heq.symm hanswer with ⟨rfl, -⟩ | rfl
      · rfl
      · exact Function.update_of_ne hk ..
    · cases hanswer with
      | refused | execvp => rfl
      | privates => exact Function.update_of_ne hk ..
      | mounts hallowed => exact hsep.apply_of_ne hallowed hk
    · cases heq

/-- A namespace stays separate, also when a container is started. -/
theorem MountWorld.Step.separate (hstep : s.Step e s') (hk : k ≠ 0)
    (hnew : ∀ n, e = .cloned n → k ≠ n) (h : Separate s.tables k) : Separate s'.tables k := by
  cases hstep with
  | host hallowed | command _ hallowed => exact h.apply hallowed
  | @cloned n hn hchild command =>
    intro i hi g hg hgi
    have hkn := hnew n rfl
    dsimp only at hg hgi
    rw [Function.update_of_ne hkn] at hg
    by_cases hin : i = n
    · subst hin
      rw [Function.update_self] at hgi
      exact h 0 (Ne.symm hk) g hg hgi
    · rw [Function.update_of_ne hin] at hgi
      exact h i hi g hg hgi
  | @ended n e hchild =>
    refine h.of_groups (fun i => ?_)
    by_cases hin : i = n
    · subst hin
      dsimp only
      rw [Function.update_self]
      exact List.nil_subset _
    · dsimp only
      rw [Function.update_of_ne hin]
      exact List.Subset.refl _
  | child hchild hanswer =>
    cases hanswer with
    | refused | execvp => exact h
    | privates => exact h.of_groups (groups_makeAllPrivate s.tables _ 0)
    | mounts hallowed => exact h.apply hallowed

/-- **Every step keeps the invariant.** -/
theorem MountWorld.Inv.step (h : s.Inv) (hstep : s.Step e s') : s'.Inv where
  host := by
    cases hstep with
    | host | command => exact h.host
    | cloned hn => exact (Function.update_of_ne (Ne.symm hn) ..).trans h.host
    | child hchild | ended hchild =>
      exact (Function.update_of_ne (Ne.symm (h.ne_zero hchild)) ..).trans h.host
  child := by
    -- what has not moved is as it was, or as separate as it was
    have hkept : ∀ n p, n ≠ 0 → (∀ m, e = .cloned m → n ≠ m) → s.child n = some p →
        (∃ command, p = containerChild command) ∨ Separate s'.tables n ∨ p = .ret .exited :=
      fun n p hn hnew hp =>
        (h.child n p hp).imp_right (Or.imp_left (hstep.separate hn hnew))
    intro n p hp
    cases hstep with
    | host | command => exact hkept n p (h.ne_zero hp) (fun _ he => nomatch he) hp
    | @cloned m hn hchild command =>
      dsimp only at hp
      by_cases hnm : n = m
      · subst hnm
        rw [Function.update_self] at hp
        exact Or.inl ⟨command, (Option.some.inj hp).symm⟩
      · rw [Function.update_of_ne hnm] at hp
        exact hkept n p (h.ne_zero hp) (fun m he => by cases he; exact hnm) hp
    | @ended m e hchild =>
      dsimp only at hp
      by_cases hnm : n = m
      · subst hnm
        rw [Function.update_self] at hp
        exact Or.inr (Or.inr (Option.some.inj hp).symm)
      · rw [Function.update_of_ne hnm] at hp
        exact hkept n p (h.ne_zero hp) (fun _ he => nomatch he) hp
    | @child m op next hchild answer t hanswer =>
      dsimp only at hp
      by_cases hnm : n = m
      · subst hnm
        rw [Function.update_self] at hp
        obtain rfl := Option.some.inj hp
        rcases h.child n _ hchild with ⟨command, heq⟩ | hsep | heq
        · rcases first_call heq.symm hanswer with ⟨rfl, hnext⟩ | rfl
          · exact Or.inr (Or.inr hnext)
          · exact Or.inr (Or.inl (separate_makeAllPrivate s.tables n 0))
        · refine Or.inr (Or.inl ?_)
          exact (MountWorld.Step.child hchild hanswer).separate (h.ne_zero hchild)
            (fun _ he => nomatch he) hsep
        · cases heq
      · rw [Function.update_of_ne hnm] at hp
        exact hkept n p (h.ne_zero hp) (fun _ he => nomatch he) hp

end

theorem MountWorld.inv_of_run {mounts : List (Mount CStr)} {es : List MountEvent}
    {s : MountWorld} (hrun : Run MountWorld.Step (.before mounts) es s) : s.Inv :=
  Run.invariant (fun _ _ _ h hstep => h.step hstep)
    ⟨rfl, fun _ _ h => absurd h.symm (Option.some_ne_none _)⟩ hrun

/-! ## The host does not notice -/

/-- What happens on the host itself. -/
def MountEvent.onHost : MountEvent → Bool
  | host _ _ => true
  | _ => false

/-- The host without the containers. -/
structure MountWorld.Alone (s s₀ : MountWorld) : Prop where
  host : s₀.tables 0 = s.tables 0
  others : ∀ k, k ≠ 0 → s₀.tables k = []

theorem MountWorld.alone_before (mounts : List (Mount CStr)) :
    (before mounts).Alone (before mounts) where
  host := rfl
  others k hk := by
    show Function.update (fun _ => []) 0 mounts k = []
    rw [Function.update_of_ne hk]

section

variable {s s' s₀ : MountWorld} {e : MountEvent}

/-- Nothing that a container does is seen on the host, -/
theorem MountWorld.Alone.skip (h : s.Alone s₀) (hinv : s.Inv) (hstep : s.Step e s')
    (he : e.onHost = false) : s'.Alone s₀ where
  host := by
    have hns : 0 ≠ e.ns := by
      cases hstep with
      | host => cases he
      | cloned hn => exact Ne.symm hn
      | child hchild | command hchild | ended hchild => exact Ne.symm (hinv.ne_zero hchild)
    rw [h.host, hstep.tables_of_ne hinv hns (Or.inr rfl)]
  others := h.others

/-- and the host can do the same without them. -/
theorem MountWorld.Alone.follow (h : s.Alone s₀) (hstep : s.Step e s') (he : e.onHost = true) :
    ∃ s₀', s₀.Step e s₀' ∧ s'.Alone s₀' := by
  cases hstep with
  | cloned | child | command | ended => cases he
  | @host c g' hallowed =>
    have hempty : ∀ k, k ≠ 0 → ∀ g, g ∉ groups (s₀.tables k) := by
      intro k hk g hg
      rw [h.others k hk] at hg
      cases hg
    have hallowed₀ : Allowed s₀.tables 0 g' c := by
      refine hallowed.congr h.host.symm (fun k => ?_)
      by_cases hk : k = 0
      · rw [hk, h.host]
        exact hallowed.fresh 0
      · exact hempty k hk g'
    refine ⟨_, .host hallowed₀, apply_congr h.host g' c, fun k hk => ?_⟩
    exact (apply_of_apart hallowed₀ hk (fun g _ => hempty k hk g)).trans (h.others k hk)

end

/-- **The host has the mounts it would have without containers.** In every interleaving,
whatever is shared, what the host has done to its mounts could have been done without
any container, with the same calls, and has led to the same mounts. -/
theorem host_undisturbed {mounts : List (Mount CStr)} {es : List MountEvent} {s : MountWorld}
    (hrun : Run MountWorld.Step (.before mounts) es s) :
    ∃ s₀, Run MountWorld.Step (.before mounts) (es.filter MountEvent.onHost) s₀ ∧
      s₀.tables 0 = s.tables 0 := by
  have hsim : s.Inv ∧ ∃ s₀, Run MountWorld.Step (.before mounts) (es.filter MountEvent.onHost) s₀ ∧
      s.Alone s₀ := by
    refine Run.invariant_labels (I := fun es s => s.Inv ∧ ∃ s₀,
      Run MountWorld.Step (.before mounts) (es.filter MountEvent.onHost) s₀ ∧ s.Alone s₀)
      ?_ ⟨MountWorld.inv_of_run .nil, _, .nil, MountWorld.alone_before mounts⟩ hrun
    rintro es s e s' ⟨hinv, s₀, hrun₀, halone⟩ hstep
    refine ⟨hinv.step hstep, ?_⟩
    rw [List.filter_append]
    cases he : e.onHost with
    | false =>
      rw [List.filter_singleton, he, cond_false, List.append_nil]
      exact ⟨s₀, hrun₀, halone.skip hinv hstep he⟩
    | true =>
      rw [List.filter_singleton, he, cond_true]
      obtain ⟨s₀', hstep₀, halone'⟩ := halone.follow hstep he
      exact ⟨s₀', hrun₀.snoc hstep₀, halone'⟩
  obtain ⟨-, s₀, hrun₀, halone⟩ := hsim
  exact ⟨s₀, hrun₀, halone.host⟩

/-- A host that shares its one mount. -/
def sharedRoot : Mount CStr := ⟨0, 0, [], "ext4".toList, [], some 0⟩

/-- A container that has mounted its `/proc` and executes its command. -/
theorem MountWorld.run_sh : ∃ s, Run Step (before [sharedRoot])
      [.cloned 1, .child 1, .child 1, .child 1, .child 1, .child 1, .child 1] s ∧
    s.child 1 = some (.ret .executed) ∧ s.tables 0 = [sharedRoot] ∧
      s.tables 1 = [{ sharedRoot with group := none },
        ⟨1, 0, ["proc".toList], "proc".toList, [], none⟩] ∧ s.child 2 = none := by
  have hmount : Allowed (MountTable.apply
        (Function.update (before [sharedRoot]).tables 1 [sharedRoot]) 1 0 .makeAllPrivate) 1 7
      (.mount { sharedRoot with group := none } ["proc".toList] "proc".toList) := by
    refine ⟨fun k hk => ?_, by decide⟩
    have hgroups := groups_makeAllPrivate _ 1 0 k hk
    by_cases h1 : k = 1
    · subst h1
      exact absurd hgroups (by decide)
    · rw [Function.update_of_ne h1, before] at hgroups
      by_cases h0 : k = 0
      · subst h0
        exact absurd hgroups (by decide)
      · dsimp only at hgroups
        rw [Function.update_of_ne h0] at hgroups
        cases hgroups
  refine ⟨_, Run.cons (.cloned (by decide) rfl [some "sh".toList]) <|
    Run.cons (.child rfl .privates) <| Run.cons (.child rfl (.mounts hmount)) <|
    Run.cons (.child rfl (.refused (by decide : MountResult.busy ≠ .mounted))) <|
    Run.cons (.child rfl (.refused (by decide : MountResult.busy ≠ .mounted))) <|
    Run.cons (.child rfl (.refused (by decide : MountResult.busy ≠ .mounted))) <|
    Run.cons (.child rfl (.execvp true)) Run.nil, rfl, rfl, rfl, rfl⟩

theorem host_undisturbed_sh : ∃ es s, Run MountWorld.Step (.before [sharedRoot]) es s ∧
    s.child 1 = some (.ret .executed) ∧
      ∃ s₀, Run MountWorld.Step (.before [sharedRoot]) (es.filter MountEvent.onHost) s₀ ∧
        s₀.tables 0 = s.tables 0 :=
  have ⟨s, hrun, hchild, _⟩ := MountWorld.run_sh
  ⟨_, s, hrun, hchild, host_undisturbed hrun⟩

/-! ## A container has its mounts to itself -/

/-- **A container keeps its mounts.** Once it executes its command, whatever the host and
the other containers do, in any order, its mounts change only by what its own processes
do. -/
theorem container_undisturbed {mounts : List (Mount CStr)} {es es' : List MountEvent}
    {s s' : MountWorld} {n : ℕ} (hrun : Run MountWorld.Step (.before mounts) es s)
    (hchild : s.child n = some (.ret .executed)) (hrun' : Run MountWorld.Step s es' s')
    (hes' : ∀ e ∈ es', e.ns ≠ n) : s'.tables n = s.tables n := by
  have hinv := MountWorld.inv_of_run hrun
  have hn := hinv.ne_zero hchild
  have hkept : s'.Inv ∧ ((∀ e ∈ es', e.ns ≠ n) →
      Separate s'.tables n ∧ s'.tables n = s.tables n) := by
    refine Run.invariant_labels (I := fun es s' => s'.Inv ∧ ((∀ e ∈ es, e.ns ≠ n) →
      Separate s'.tables n ∧ s'.tables n = s.tables n)) ?_
      ⟨hinv, fun _ => ⟨hinv.separate hchild, rfl⟩⟩ hrun'
    rintro es s₁ e s₂ ⟨hinv₁, hsame⟩ hstep
    refine ⟨hinv₁.step hstep, fun hall => ?_⟩
    have he : e.ns ≠ n := hall e List.mem_concat_self
    obtain ⟨hsep, heq⟩ := hsame (fun e he => hall e (List.mem_append_left _ he))
    have hnew : ∀ m, e = .cloned m → n ≠ m := by
      rintro m rfl
      exact Ne.symm he
    exact ⟨hstep.separate hn hnew hsep,
      (hstep.tables_of_ne hinv₁ (Ne.symm he) (Or.inl hsep)).trans heq⟩
  exact (hkept.2 hes').2

theorem container_undisturbed_sh : ∃ s s', s.child 1 = some (.ret .executed) ∧
    Run MountWorld.Step s [.cloned 2] s' ∧ s'.tables 2 = s.tables 0 ∧
      s'.tables 1 = s.tables 1 := by
  obtain ⟨s, hrun, hchild, -, -, hnone⟩ := MountWorld.run_sh
  have hrun' : Run MountWorld.Step s [.cloned 2] _ :=
    Run.cons (.cloned (by decide) hnone []) Run.nil
  have hcopied : Function.update s.tables 2 (s.tables 0) 2 = s.tables 0 := Function.update_self ..
  exact ⟨s, _, hchild, hrun', hcopied,
    container_undisturbed hrun hchild hrun' (by simp [MountEvent.ns])⟩
