import Converge.Proofs.Frame
import Converge.Proofs.TextReadings
import Converge.Proofs.TextRefinement
import Converge.Proofs.TextStatus

/-!
# The frame of a pass over texts

A pass over a database writes the text of an object at most once in each of the places of its frame.
It writes what it has read there: a service or workload in its shape, with the status and the other
labels that were read, and the database with another status. What it reads is not always what was
written: a floating-point number in a status, or in a member of the specification that a database
does not have, can be read as its neighbour, and then the neighbour is written. Where objects are
read as they were written, the frame of a pass over texts is that of a pass over values.

## Main definitions

* `TextStore.unreliable`: texts of a store that fails any calls of a pass.
* `TextStore.Framed`: what may become of texts in a pass over a database.
* `TextStore.Confined`: a pass in progress that keeps to its frame.

## Main results

* `Reconciler.reconcile_makes_upsert_once`, `Reconciler.place_of_reconcile_makes`: a pass writes no
  place twice.
* `TextStore.Framed.serve`: the frame of a single call.
* `TextStore.Framed.opened`: the frame over what is read as it is.
* `Reconciler.unreliable_text_framed`: the frame of a pass.
* `Reconciler.reconcile_changes_spec`: a specification that is changed by a pass.
-/

namespace Converge

open Program (Invocation Exchange)

/-! ### Each object once -/

namespace Reconciler

variable {r : Reconciler} {now : UInt64} {key : ObjectKey} {a : Aggregate} {database : Database}
  {t : List Exchange} {placeholder : Object} {change : Change} {tkey : String}

/-- In the exchanges `t` no object was brought to its shape under the table key `tkey`. -/
def Unbuilt (tkey : String) (t : List Exchange) : Prop :=
  ∀ placeholder change answer, .upsert placeholder change answer ∈ t → placeholder.tableKey ≠ tkey

/-- Builders for different objects do not bring an object to its shape twice. -/
private theorem syncEach_makes_upsert {builders : List Builder}
    (hnodup : (builders.map (·.placeholder.tableKey)).Nodup)
    (h : (r.syncEach a builders).Makes t (.upsert placeholder change)) :
    placeholder.tableKey ∈ builders.map (·.placeholder.tableKey) ∧
      Unbuilt placeholder.tableKey t := by
  induction builders generalizing t with
  | nil => exact h.elim
  | cons b rest ih =>
    rw [List.map_cons, List.nodup_cons] at hnodup
    rcases h with ⟨rfl, heq⟩ | ⟨answer, t', rfl, h⟩
    · obtain ⟨rfl, -⟩ := Invocation.upsert.inj heq
      exact ⟨List.mem_cons_self, fun _ _ _ hmem => absurd hmem List.not_mem_nil⟩
    -- The rest of the builders run after this one, whose outcome may be told.
    have hrest : ∀ {t'' : List Exchange} (notices : List Notice),
        (r.syncEach a rest).Makes t'' (.upsert placeholder change) →
        placeholder.tableKey ∈ (b :: rest).map (·.placeholder.tableKey) ∧
          Unbuilt placeholder.tableKey
            (.upsert b.placeholder (b.owned a.database.metadata) answer ::
              (notices.map .record ++ t'')) := by
      intro t'' notices h
      obtain ⟨hmem, hunbuilt⟩ := ih hnodup.2 h
      refine ⟨List.mem_cons_of_mem _ hmem, fun placeholder' change' answer' hmem' => ?_⟩
      rcases List.mem_cons.mp hmem' with heq | hmem'
      · obtain ⟨rfl, -, -⟩ := Exchange.upsert.inj heq
        rintro heq'
        exact hnodup.1 (heq' ▸ hmem)
      rcases List.mem_append.mp hmem' with hmem' | hmem'
      · obtain ⟨_, -, heq⟩ := List.mem_map.mp hmem'
        exact nomatch heq
      · exact hunbuilt placeholder' change' answer' hmem'
    cases answer with
    | error e => exact nomatch (Program.notify_pure_makes.mp h).2
    | ok outcome =>
      change (if outcome.changed then _ else _ : Program Flow).Makes t' _ at h
      split at h
      · rcases Program.makes_bind.mp h with h | ⟨t₁, t₂, _, rfl, hnotice, h⟩
        · exact nomatch (Program.notify_makes.mp h).2
        · rw [Program.notify_ends.mp hnotice]
          exact hrest [_] h
      · exact hrest [] h

private theorem MayCall.not_upsert
    (h : ({ r with catalog := fun _ => [] } : Reconciler).MayCall now database t
      (.upsert placeholder change)) : False := by
  cases h with
  | build _ _ hb => exact absurd hb List.not_mem_nil

/-- The steps bring no object to its shape twice. -/
private theorem steps_makes_upsert {resources : Resources}
    (hnodup : ∀ a, ((r.catalog a).map (·.placeholder.tableKey)).Nodup)
    (h : (r.steps now { database, resources }).Makes t (.upsert placeholder change)) :
    Unbuilt placeholder.tableKey t := by
  -- The other steps are those of a reconciler without a catalog.
  let r' : Reconciler := { r with catalog := fun _ => [] }
  rw [steps, Program.andThen_makes] at h
  rcases h with h | ⟨t₁, t₂, _, rfl, hstorage, h⟩
  · have hcall : r'.MayCall now database _ (.upsert placeholder change) :=
      awaitStorage_makes (a := ⟨database, resources, none⟩) h
    exact hcall.not_upsert.elim
  obtain ⟨o, cluster, rfl, ho, hready, rfl⟩ := awaitStorage_proceeds hstorage
  rw [Program.andThen_makes] at h
  rcases h with h | ⟨t₂, t₃, _, rfl, hsync, h⟩
  · intro placeholder' change' answer' hmem
    rcases List.mem_cons.mp hmem with heq | hmem
    · cases heq
    exact (syncEach_makes_upsert (hnodup _) h).2 placeholder' change' answer' hmem
  obtain ⟨rfl, -⟩ := syncEach_proceeds hsync
  rw [Program.andThen_makes] at h
  rcases h with h | ⟨t₃, t₄, _, rfl, hscale, h⟩
  · have hcall : r'.MayCall now database _ (.upsert placeholder change) :=
      awaitScale_makes (a := ⟨database, resources, some cluster⟩) h
    exact hcall.not_upsert.elim
  obtain ⟨rfl, -⟩ := awaitScale_proceeds hscale
  split at h
  · exact h.elim
  rename_i hinit
  have hf : database.status.isTrue tenantInitialized = false := Bool.eq_false_iff.mpr hinit
  rw [Program.andThen_makes] at h
  rcases h with h | ⟨_, t₅, _, rfl, hannounce, h⟩
  · have hcall := announceTenant_makes (r := r') (a := ⟨database, resources, some cluster⟩) hf h
    exact hcall.not_upsert.elim
  obtain ⟨rfl, rfl, hknown, hstate⟩ := announceTenant_proceeds hannounce
  rcases createTenant_makes h with hfind | ⟨_, _, _, _, -, -, -, hcreate⟩
  · have hcall : r'.MayCall now database _ (.upsert placeholder change) :=
      storageOf_makes (a := ⟨database, resources, some cluster⟩) hfind
    exact hcall.not_upsert.elim
  · rcases hcreate with ⟨-, heq⟩ | ⟨_, -, heq⟩ | ⟨_, _, -, -, hpersist⟩
    · cases heq
    · cases heq
    · have hcall := mayCall_of_persist (r := r') (a := ⟨database, resources, some cluster⟩)
        (.complete hknown hf hstate) hpersist
      exact hcall.not_upsert.elim

/-- **A pass brings no object to its shape twice.** -/
theorem reconcile_makes_upsert_once (hr : r.catalog = Catalog.standard)
    (h : (r.reconcile now key).Makes t (.upsert placeholder change)) :
    Unbuilt placeholder.tableKey t := by
  rw [reconcile, Program.makes_bind] at h
  rcases h with h | ⟨_, t', found, rfl, hfound, h⟩
  · cases (Program.fetch_makes.mp h).2
  obtain ⟨answer, rfl, hread⟩ := Program.fetch_ends.mp hfound
  rcases found with _ | _ | database
  · exact h.elim
  · exact h.elim
  · simp only at h
    split at h
    · cases (Program.notify_pure_makes.mp h).2
    rename_i a ha
    obtain ⟨resources, -, rfl⟩ := Aggregate.ofDatabase_eq_ok_iff.mp ha
    have hnodup : ∀ a, ((r.catalog a).map (·.placeholder.tableKey)).Nodup := by
      rw [hr]
      exact Catalog.standard_nodup
    have hsteps : (r.steps now { database, resources }).Makes t' (.upsert placeholder change) := by
      rw [runAggregate] at h
      rcases Program.makes_bind.mp h with h | ⟨_, _, _, _, _, h⟩
      · rcases Program.makes_bind.mp h with h | ⟨_, _, flow, _, _, h⟩
        · exact h
        · cases flow <;> exact h.elim
      · exact h.elim
    intro placeholder' change' answer' hmem
    rcases List.mem_cons.mp hmem with heq | hmem
    · cases heq
    exact steps_makes_upsert hnodup hsteps placeholder' change' answer' hmem

/-- **A pass writes no place twice.** -/
theorem place_of_reconcile_makes {e e' : Exchange} (hr : r.catalog = Catalog.standard)
    (h : (r.reconcile now key).Makes t e.call) (hplace : e.place? = some tkey) (he' : e' ∈ t) :
    e'.place? ≠ some tkey := by
  obtain ⟨t₁, t₂, rfl⟩ := List.append_of_mem he'
  have h' := h.of_append
  -- What is brought to its shape is not a database.
  have hne : ∀ {t placeholder change}, (r.reconcile now key).Makes t (.upsert placeholder change) →
      ∀ key', placeholder.tableKey ≠ tableKey Database.kind.name key' := by
    intro t placeholder change h key'
    obtain ⟨_, _, b, -, -, hb, rfl, -⟩ := reconcile_makes_upsert h
    rw [hr] at hb
    exact Catalog.standard_tableKey_ne hb Database.kind.name (by decide) (by decide) key'
  cases e with
  | get | record | provision => exact nomatch hplace
  | upsert placeholder change answer =>
    obtain rfl := Option.some.inj hplace
    cases e' with
    | get | record | provision => exact nofun
    | upsert placeholder' change' answer' =>
      exact fun heq => reconcile_makes_upsert_once hr h _ _ _ he' (Option.some.inj heq)
    | writeStatus w answer' =>
      obtain ⟨_, _, _, _, _, -, -, -, -, -, -, rfl⟩ := reconcile_makes_writeStatus h'
      exact fun heq => hne h _ (Option.some.inj heq).symm
  | writeStatus w answer =>
    obtain ⟨_, _, _, _, _, -, -, -, -, -, hfirst, rfl⟩ := reconcile_makes_writeStatus h
    obtain rfl := Option.some.inj hplace
    cases e' with
    | get | record | provision => exact nofun
    | upsert placeholder' change' answer' => exact fun heq => hne h' _ (Option.some.inj heq)
    | writeStatus w' answer' => exact nomatch hfirst _ he'

end Reconciler

/-! ### Texts with failures -/

/-- Collaborators that fail every call: nothing is read, written or recorded. -/
def Collaborators.failing {σ : Type} (outage : Outage) : Collaborators σ where
  get _ _ s := (.error outage.store, s)
  upsert _ _ s := (.error outage.store, s)
  writeStatus _ s := (.error outage.store, s)
  record _ s := s
  provision _ s := (.error outage.tenants, s)

namespace TextStore

open Store (Operation)
open Session (Performs InPlace)

variable {t t' t₀ t₁ : TextStore} {e : Exchange} {a : Aggregate} {tkey : String}

/-- The texts of a store that answers the call with number `n` at the time `clock n`, unless
`outages n` says how the call fails. -/
def unreliable (clock : Nat → UInt64) (outages : Nat → Option Outage) :
    Collaborators (Nat × TextStore) :=
  .inTurn fun n => ((outages n).map .failing).getD (collaborators (clock n))

/-- The call of an exchange was answered or has failed. -/
def Served (t t' : TextStore) (e : Exchange) : Prop :=
  (∃ now, e.Served (collaborators now) t t') ∨ ∃ outage, e.Served (.failing outage) t t'

theorem served_unreliable {clock : Nat → UInt64} {outages : Nat → Option Outage}
    {x x' : Nat × TextStore} (h : e.Served (unreliable clock outages) x x') :
    Served x.2 x'.2 e := by
  have hturn := (Collaborators.served_inTurn h).2
  cases houtage : outages x.1 with
  | none =>
    rw [houtage] at hturn
    exact .inl ⟨clock x.1, hturn⟩
  | some outage =>
    rw [houtage] at hturn
    exact .inr ⟨outage, hturn⟩

theorem Served.cases (h : Served t t' e) :
    t' = t ∨ ∃ op, Performs e.call op ∧ t' = t.apply op := by
  rcases h with ⟨now, h⟩ | ⟨outage, h⟩
  · cases e with
    | get kind key answer => exact .inl (congrArg Prod.snd h).symm
    | upsert placeholder change answer =>
      exact .inr ⟨.upsert placeholder change, rfl, (congrArg Prod.snd h).symm⟩
    | writeStatus o answer => exact .inr ⟨.writeStatus o, rfl, (congrArg Prod.snd h).symm⟩
    | record notice => exact .inr ⟨.putEvent _, ⟨_, rfl, rfl⟩, Eq.symm h⟩
    | provision request answer =>
      exact .inr ⟨.putTenant request, rfl, (congrArg Prod.snd h).symm⟩
  · cases e with
    | record notice => exact .inl (Eq.symm h)
    | get | upsert | writeStatus | provision => exact .inl (congrArg Prod.snd h).symm

theorem Served.find? {kind : String} {key : ObjectKey} {o : Object}
    (h : Served t t' (.get kind key (.ok (some o)))) : t.find? kind key = .ok (some o) := by
  rcases h with ⟨now, h⟩ | ⟨outage, h⟩
  · exact congrArg Prod.fst h
  · exact nomatch congrArg Prod.fst h

theorem Served.placed (h : Served t t' e) (ht : t.Placed) : t'.Placed := by
  rcases h.cases with rfl | ⟨op, -, rfl⟩
  · exact ht
  · exact ht.apply op

/-- **What a call writes** is one text in its place, over what can be read. -/
theorem Served.objects_cases (h : Served t t' e) : t'.objects = t.objects ∨
    ∃ op key o, Performs e.call op ∧ e.place? = some key ∧
      (∃ stored?, t.objectAt key = .ok stored?) ∧
      op.Writes t.opened key o ∧ t'.objects = t.objects.insert key (Object.codec.toText o) := by
  rcases h.cases with rfl | ⟨op, hperforms, rfl⟩
  · exact .inl rfl
  rcases t.objects_apply op with hobjects | ⟨kind, key, rfl, -⟩ | ⟨key, o, hread, hwrites, hobjects⟩
  · exact .inl hobjects
  · cases e with
    | get => exact hperforms.elim
    | record => exact nomatch hperforms.choose_spec.2
    | upsert | writeStatus | provision => exact nomatch hperforms
  · refine .inr ⟨op, key, o, hperforms, ?_, hread, hwrites, hobjects⟩
    cases e with
    | get => exact hperforms.elim
    | record =>
      obtain ⟨_, -, rfl⟩ := hperforms
      exact nomatch hwrites
    | provision request answer =>
      obtain rfl : op = .putTenant request := hperforms
      exact nomatch hwrites
    | upsert placeholder change answer =>
      obtain rfl : op = .upsert placeholder change := hperforms
      cases hwrites <;> rfl
    | writeStatus w answer =>
      obtain rfl : op = .writeStatus w := hperforms
      cases hwrites
      rfl

theorem Served.tenants_cases (h : Served t t' e) : t'.tenants = t.tenants ∨
    ∃ request, e.call = .provision request ∧ t' = (t.putTenant request).2 := by
  rcases h.cases with rfl | ⟨op, hperforms, rfl⟩
  · exact .inl rfl
  rcases t.tenants_apply op with ⟨request, rfl⟩ | h
  · cases e with
    | provision request' answer =>
      obtain rfl := Operation.putTenant.inj hperforms
      exact .inr ⟨request, rfl, rfl⟩
    | get => exact hperforms.elim
    | record => exact nomatch hperforms.choose_spec.2
    | upsert | writeStatus => exact nomatch hperforms
  · exact .inl h

theorem Served.tenants_of_place (h : Served t t' e) (hplace : e.place? = some tkey) :
    t'.tenants = t.tenants := by
  rcases h.tenants_cases with htenants | ⟨request, hcall, -⟩
  · exact htenants
  cases e with
  | get | record | provision => exact nomatch hplace
  | upsert | writeStatus => exact nomatch hcall

theorem Served.of_quiet (h : Served t t' e)
    (he : (∃ kind key, e.call = .get kind key) ∨ ∃ notice, e.call = .record notice) :
    t'.objects = t.objects ∧ t'.tenants = t.tenants := by
  constructor
  · rcases h.objects_cases with h | ⟨_, _, _, -, hplace, -⟩
    · exact h
    cases e with
    | get | record | provision => exact nomatch hplace
    | upsert | writeStatus => rcases he with ⟨_, _, he⟩ | ⟨_, he⟩ <;> exact nomatch he
  · rcases h.tenants_cases with h | ⟨_, hcall, -⟩
    · exact h
    · rcases he with ⟨_, _, he⟩ | ⟨_, he⟩ <;> exact nomatch he.symm.trans hcall

/-! ### The frame of a pass over texts -/

/-- What may become of the texts `t` in a pass over a database. -/
structure Framed (a : Aggregate) (t t' : TextStore) : Prop where
  /-- Elsewhere every text stays. -/
  others : ∀ tkey, tkey ∉ a.places → t'.objects.find? tkey = t.objects.find? tkey
  /-- What is kept of a service or workload stays, or it is written as it is read and reshaped. -/
  owned : ∀ tkey, tkey ≠ tableKey Database.kind.name a.key →
    ∀ text, t.objects.find? tkey = some text → t'.objects.find? tkey = some text ∨
      ∃ o o', Object.codec.ofText text = .ok o ∧ o.Reshaped o' ∧
        o'.spec.reread Object.nestingLimit = some o'.spec ∧
        t'.objects.find? tkey = some (Object.codec.toText o')
  /-- What is kept of the database stays, or it is written as it is read, with another status. -/
  database : ∀ text, t.objects.find? (tableKey Database.kind.name a.key) = some text →
    t'.objects.find? (tableKey Database.kind.name a.key) = some text ∨
      ∃ o status, Object.codec.ofText text = .ok o ∧
        t'.objects.find? (tableKey Database.kind.name a.key) =
          some (Object.codec.toText (o.restated status))
  /-- A tenant may be registered. -/
  tenants : a.Registers t.tenants t'.tenants

theorem Framed.refl (a : Aggregate) (t : TextStore) : Framed a t t :=
  ⟨fun _ _ => rfl, fun _ _ _ h => .inl h, fun _ h => .inl h, .inl rfl⟩

theorem Framed.congr (h : Framed a t₀ t) (hobjects : t'.objects = t.objects)
    (htenants : a.Registers t.tenants t'.tenants) : Framed a t₀ t' where
  others tkey htkey := by rw [hobjects, h.others tkey htkey]
  owned := by
    rw [hobjects]
    exact h.owned
  database := by
    rw [hobjects]
    exact h.database
  tenants := h.tenants.trans htenants

/-- One text may be written that has not been written before. -/
theorem Framed.written {o' : Object} (h : Framed a t₀ t) (hplace : tkey ∈ a.places)
    (hfirst : t.objects.find? tkey = t₀.objects.find? tkey)
    (hobjects : t'.objects = t.objects.insert tkey (Object.codec.toText o'))
    (htenants : t'.tenants = t.tenants)
    (howned : tkey ≠ tableKey Database.kind.name a.key → ∀ text, t.objects.find? tkey = some text →
      ∃ o, Object.codec.ofText text = .ok o ∧ o.Reshaped o' ∧
        o'.spec.reread Object.nestingLimit = some o'.spec)
    (hdatabase : tkey = tableKey Database.kind.name a.key →
      ∀ text, t.objects.find? tkey = some text →
      ∃ o status, Object.codec.ofText text = .ok o ∧ o' = o.restated status) :
    Framed a t₀ t' := by
  have hself : t'.objects.find? tkey = some (Object.codec.toText o') := by
    rw [hobjects, Table.find?_insert_self]
  have hne : ∀ k, k ≠ tkey → t'.objects.find? k = t.objects.find? k := fun k hk => by
    rw [hobjects, Table.find?_insert_ne _ hk.symm]
  refine ⟨fun k hk => ?_, fun k hk text htext => ?_, fun text htext => ?_, ?_⟩
  · rw [hne k fun heq => hk (heq ▸ hplace), h.others k hk]
  · by_cases heq : k = tkey
    · subst heq
      obtain ⟨o, hread, hreshaped, hspec⟩ := howned hk text (hfirst.trans htext)
      exact .inr ⟨o, o', hread, hreshaped, hspec, hself⟩
    · rw [hne k heq]
      exact h.owned k hk text htext
  · by_cases heq : tableKey Database.kind.name a.key = tkey
    · rw [heq] at htext ⊢
      obtain ⟨o, status, hread, rfl⟩ := hdatabase heq.symm text (hfirst.trans htext)
      exact .inr ⟨o, status, hread, hself⟩
    · rw [hne _ heq]
      exact h.database text htext
  · rw [htenants]
    exact h.tenants

/-- A pass over a loaded database registers no tenant but at its path. -/
theorem Served.registers {r : Reconciler} {now : UInt64} {database : Database}
    {resources : Resources} {x : List Exchange} (h : Served t t' e)
    (hcall : r.MayCall now database x e.call ∨
      ∃ request, e.call = .provision request ∧ r.Gated database resources x request) :
    (⟨database, resources, none⟩ : Aggregate).Registers t.tenants t'.tenants := by
  rcases h.tenants_cases with htenants | ⟨request, hprovision, rfl⟩
  · exact .inl htenants
  rcases hcall with hcall | ⟨request', heq, hgated⟩
  · rw [hprovision] at hcall
    exact nomatch hcall
  obtain rfl := Invocation.provision.inj (hprovision.symm.trans heq)
  have hpath : request.path = (⟨database, resources, none⟩ : Aggregate).path := by
    cases hgated with
    | intro _ _ _ _ _ _ _ _ _ _ _ path => exact path
  exact t.registry.putTenant_registers hpath

/-- **The frame of a call** of a pass over a loaded database. -/
theorem Framed.serve {r : Reconciler} {now : UInt64} {database : Database} {resources : Resources}
    {x : List Exchange} (hr : r.catalog = Catalog.standard)
    (hresolve : database.spec.resolve = .ok resources)
    (hcall : r.MayCall now database x e.call ∨
      ∃ request, e.call = .provision request ∧ r.Gated database resources x request)
    (hwrite : ∀ w, e.call = .writeStatus w →
      w.tableKey = tableKey Database.kind.name database.key)
    (hfirst : ∀ tkey, e.place? = some tkey → t.objects.find? tkey = t₀.objects.find? tkey)
    (hserved : Served t t' e) (h : Framed ⟨database, resources, none⟩ t₀ t) :
    Framed ⟨database, resources, none⟩ t₀ t' := by
  rcases hserved.objects_cases with hobjects | ⟨op, tkey, o', hperforms, hplace, hread, hwrites,
    hobjects⟩
  · exact h.congr hobjects (hserved.registers hcall)
  have htenants := hserved.tenants_of_place hplace
  replace hfirst := hfirst tkey hplace
  have hopened : ∀ {stored}, t.opened.objects.find? tkey = some stored →
      ∀ text, t.objects.find? tkey = some text → Object.codec.ofText text = .ok stored := by
    intro stored hfind text htext
    obtain ⟨text', htext', hstored⟩ := find?_opened_iff.mp hfind
    obtain rfl := Option.some.inj (htext.symm.trans htext')
    exact hstored
  cases e with
  | get | record | provision => exact nomatch hplace
  | writeStatus w answer =>
    obtain rfl : op = .writeStatus w := hperforms
    obtain rfl := Option.some.inj hplace
    have hkey := hwrite w rfl
    refine h.written ?_ hfirst hobjects htenants (fun hne => absurd hkey hne) fun _ text htext => ?_
    · rw [hkey]
      exact Aggregate.database_mem_places _
    · rcases hcall with hcall | ⟨_, heq, -⟩
      · cases hcall with
        | @persist _ _ status _ _ _ _ =>
          cases hwrites with
          | status hfind _ => exact ⟨_, status, hopened hfind text htext, rfl⟩
      · exact nomatch heq
  | upsert placeholder change answer =>
    obtain rfl : op = .upsert placeholder change := hperforms
    obtain rfl := Option.some.inj hplace
    rcases hcall with hcall | ⟨_, heq, -⟩
    · cases hcall with
      | @build a' b ha hr' hb _ =>
        rw [hr] at hb
        subst ha
        obtain rfl := Except.ok.inj (hresolve.symm.trans hr')
        have hne := Catalog.standard_tableKey_ne hb Database.kind.name (by decide) (by decide)
          a'.database.key
        refine h.written (Catalog.standard_mem_places hb) hfirst hobjects htenants
          (fun _ text htext => ?_) fun heq => absurd heq hne
        cases hwrites with
        | create hnone _ _ =>
          -- A text that cannot be read is not written over.
          obtain ⟨stored?, hread⟩ := hread
          have hstored := objectAt_eq_ok_none_iff.mp
            (hread.trans (congrArg _ ((find?_opened_of_ok hread).symm.trans hnone)))
          exact nomatch htext.symm.trans hstored
        | update hfind hchange _ =>
          have hspec := Catalog.standard_owned_spec hb hchange
          exact ⟨_, hopened hfind text htext, Catalog.standard_reshaped hb hchange _, hspec⟩
    · exact nomatch heq

/-- **The frame over what is read as it is.** If all objects that can be read are read as they were
written, then what may become of the texts is what may become of the store. -/
theorem Framed.opened (h : Framed a t t') (hsteady : t.opened.Steady) :
    Store.Framed a t.opened t'.opened := by
  have hwritten : ∀ {k} {o : Object}, o.Steady →
      t'.objects.find? k = some (Object.codec.toText o) → t'.opened.objects.find? k = some o := by
    intro k o ho htext
    refine find?_opened_iff.mpr ⟨_, htext, ?_⟩
    rw [Object.ofText_toText, show _ = some _ from ho]
  refine ⟨fun k hk => ?_, fun k hk o ho => ?_, fun o ho => ?_, h.tenants⟩
  · simp only [TextStore.opened, Table.find?_filterMap, h.others k hk]
  · obtain ⟨text, htext, hobject⟩ := find?_opened_iff.mp ho
    obtain ⟨-, hstatus⟩ := Object.steady_iff.mp (hsteady k o ho)
    rcases h.owned k hk text htext with hkept | ⟨o₁, o', hobject', hreshaped, hspec, hnew⟩
    · exact ⟨o, find?_opened_iff.mpr ⟨text, hkept, hobject⟩, .refl o⟩
    · obtain rfl : o₁ = o := Except.ok.inj (hobject'.symm.trans hobject)
      refine ⟨o', hwritten (Object.steady_iff.mpr ⟨hspec, ?_⟩) hnew, hreshaped⟩
      rwa [hreshaped.status]
  · obtain ⟨text, htext, hobject⟩ := find?_opened_iff.mp ho
    obtain ⟨hspec, -⟩ := Object.steady_iff.mp (hsteady _ o ho)
    rcases h.database text htext with hkept | ⟨o₁, status, hobject', hnew⟩
    · exact ⟨o, find?_opened_iff.mpr ⟨text, hkept, hobject⟩, .refl o⟩
    · obtain rfl : o₁ = o := Except.ok.inj (hobject'.symm.trans hobject)
      exact ⟨_, hwritten (Object.reread_restated hspec status) hnew, .restated o₁ status⟩

/-- What is so while a pass over the database at `key` is in progress that has begun with the texts
`t₀`: the pass has read its database from them, a place to which it has not written is as it was,
and the texts keep to the frame of the database. -/
structure Confined (key : ObjectKey) (t₀ t : TextStore) (x : List Exchange) : Prop where
  placed : t.Placed
  inPlace : InPlace x
  fresh : x = [] → t = t₀
  first : ∀ o x', x = .get Database.kind.name key (.ok (some o)) :: x' →
    t₀.find? Database.kind.name key = .ok (some o)
  unwritten : ∀ tkey, (∀ e ∈ x, e.place? ≠ some tkey) →
    t.objects.find? tkey = t₀.objects.find? tkey
  framed : ∀ o database resources, Reconciler.Loads t₀.opened key o database resources →
    Framed ⟨database, resources, none⟩ t₀ t
  unchanged : (¬ ∃ o database resources, Reconciler.Loads t₀.opened key o database resources) →
    t.objects = t₀.objects ∧ t.tenants = t₀.tenants

theorem confined_nil (key : ObjectKey) (ht : t.Placed) : Confined key t t [] where
  placed := ht
  inPlace := Session.inPlace_nil
  fresh _ := rfl
  first _ _ h := nomatch h
  unwritten _ _ := rfl
  framed _ _ _ _ := .refl _ t
  unchanged _ := ⟨rfl, rfl⟩

variable {key : ObjectKey} {x : List Exchange}

theorem Confined.append (h : Confined key t₀ t x) (hserved : Served t t' e)
    (hfirst : x = [] → ∀ o, e = .get Database.kind.name key (.ok (some o)) →
      t₀.find? Database.kind.name key = .ok (some o))
    (hframed : ∀ o database resources, Reconciler.Loads t₀.opened key o database resources →
      Framed ⟨database, resources, none⟩ t₀ t')
    (hunchanged : (¬ ∃ o database resources, Reconciler.Loads t₀.opened key o database resources) →
      t'.objects = t.objects ∧ t'.tenants = t.tenants) :
    Confined key t₀ t' (x ++ [e]) where
  placed := hserved.placed h.placed
  inPlace kind key o hmem := by
    rcases List.mem_append.mp hmem with hmem | hmem
    · exact h.inPlace kind key o hmem
    · obtain rfl := List.mem_singleton.mp hmem
      exact h.placed _ o hserved.find?
  fresh hx := absurd hx (by simp)
  first o x' hx := by
    rcases List.append_eq_cons_iff.mp hx with ⟨rfl, heq⟩ | ⟨u, rfl, -⟩
    · exact hfirst rfl o (List.cons.inj heq).1
    · exact h.first o u rfl
  unwritten tkey hplace := by
    have hlast := hplace e (List.mem_append_right x List.mem_cons_self)
    have hbefore := h.unwritten tkey fun e' he' => hplace e' (List.mem_append_left _ he')
    rcases hserved.objects_cases with hobjects | ⟨_, k, _, -, hk, -, -, hobjects⟩
    · rw [hobjects, hbefore]
    · have hne : k ≠ tkey := fun heq => hlast (heq ▸ hk)
      rw [hobjects, Table.find?_insert_ne _ hne, hbefore]
  framed := hframed
  unchanged hnone :=
    ⟨(hunchanged hnone).1.trans (h.unchanged hnone).1,
      (hunchanged hnone).2.trans (h.unchanged hnone).2⟩

/-- Every call of a pass keeps it confined. -/
theorem Confined.serve {r : Reconciler} {now : UInt64} (hr : r.catalog = Catalog.standard)
    (ht₀ : t₀.Placed) (hcall : (r.reconcile now key).Makes x e.call) (hserved : Served t t' e)
    (h : Confined key t₀ t x) : Confined key t₀ t' (x ++ [e]) := by
  rcases Reconciler.reconcile_makes hcall with ⟨rfl, hget⟩ | ⟨o, _, notice, rfl, -, -, hrecord⟩ |
    ⟨o, database, resources, x', rfl, ho, hresolve, hsteps⟩
  · have hquiet := hserved.of_quiet (.inl ⟨_, _, hget⟩)
    refine h.append hserved (fun _ o he => ?_)
      (fun o database resources hloads =>
        (h.framed o database resources hloads).congr hquiet.1 (.inl hquiet.2)) fun _ => hquiet
    rw [← h.fresh rfl]
    subst he
    exact hserved.find?
  · have hquiet := hserved.of_quiet (.inr ⟨_, hrecord⟩)
    exact h.append hserved nofun
      (fun o database resources hloads =>
        (h.framed o database resources hloads).congr hquiet.1 (.inl hquiet.2)) fun _ => hquiet
  · have hstored := find?_opened.mpr (h.first o x' rfl)
    have hloads : Reconciler.Loads t₀.opened key o database resources :=
      ⟨hstored, ht₀.opened _ o hstored, ho, hresolve⟩
    refine h.append hserved nofun (fun o' database' resources' hloads' => ?_)
      fun hnone => absurd ⟨o, database, resources, hloads⟩ hnone
    obtain rfl := Option.some.inj (hstored.symm.trans hloads'.stored)
    obtain rfl := Except.ok.inj (ho.symm.trans hloads'.loaded)
    obtain rfl := Except.ok.inj (hresolve.symm.trans hloads'.resolved)
    refine .serve hr hresolve hsteps (fun w hw => ?_) (fun tkey hplace => ?_) hserved
      (h.framed o database resources hloads)
    · rw [Session.tableKey_of_makes_writeStatus h.inPlace (hw ▸ hcall),
        Session.tableKey_of_ofObject ho, hloads.placed]
    · exact h.unwritten tkey fun e' he' =>
        Reconciler.place_of_reconcile_makes hr hcall hplace he'

end TextStore

private theorem TextStore.reading_withRatio : withRatio.reading =
    ⟨(Table.insert ∅ "StorageCluster/prod/main" (.ok (readyCluster.withVersion 1))).insert
      "Database/prod/orders" (.ok ((ratioDatabase .drifted).withVersion 1)), ∅⟩ := by
  have hcluster : (readyCluster.withVersion 1).reread = some (readyCluster.withVersion 1) :=
    Object.reread_eq_some_iff.mpr ⟨_, _, rfl, rfl, rfl⟩
  rw [withRatio_eq, reading_withObject, reading_withObject]
  simp only [Reading.withObject, reread_ratioDatabase, hcluster]
  rfl

namespace Reconciler

variable {r : Reconciler} {t : TextStore}

/-- **The frame of a pass over texts.** In a pass over any texts that come about by operations,
whichever calls fail, and at whatever times the others are answered, neither texts nor tenants
change unless the database at the key can be loaded. If it can, the pass changes nothing but what
the frame of that database allows: what is kept there is written once at most, as it was read. So
the labels, the owner and the status that others have written stay, and the specification of the
database stays, as far as they are read as they were written. -/
theorem unreliable_text_framed (hr : r.catalog = Catalog.standard) (ht : t.Reachable) (now : UInt64)
    (key : ObjectKey) (clock : Nat → UInt64) (outages : Nat → Option Outage) :
    let t' := ((r.reconcile now key).run (TextStore.unreliable clock outages) (0, t)).2.2
    (∃ o database resources, Loads t.opened key o database resources ∧
      t.Framed ⟨database, resources, none⟩ t' ∧
      (t.opened.Steady → t.opened.Framed ⟨database, resources, none⟩ t'.opened)) ∨
    ((¬ ∃ o database resources, Loads t.opened key o database resources) ∧
      t'.objects = t.objects ∧ t'.tenants = t.tenants) := by
  intro t'
  have h : TextStore.Confined key t t' _ :=
    Program.run_induct (I := fun w x => TextStore.Confined key t w.2 x)
      (fun hcall hserved h => h.serve hr ht.placed hcall (TextStore.served_unreliable hserved))
      (0, t) (TextStore.confined_nil key ht.placed)
  by_cases hloads : ∃ o database resources, Loads t.opened key o database resources
  · obtain ⟨o, database, resources, hloads⟩ := hloads
    have hframed := h.framed o database resources hloads
    exact .inl ⟨o, database, resources, hloads, hframed, hframed.opened⟩
  · exact .inr ⟨hloads, h.unchanged hloads⟩

/-- A pass that brings the owned objects to their shape, and then fails to write the status. -/
theorem unreliable_text_framed_withRatio :
    let outages : Nat → Option Outage := fun n =>
      if n = 9 then some ⟨.reported .backend "down", .unavailable "down"⟩ else none
    let t' := ((({} : Reconciler).reconcile 7 ⟨"prod", "orders"⟩).run
      (TextStore.unreliable (fun _ => 7) outages) (0, TextStore.withRatio)).2.2
    ∃ o database resources,
      Loads TextStore.withRatio.opened ⟨"prod", "orders"⟩ o database resources ∧
      TextStore.withRatio.Framed ⟨database, resources, none⟩ t' := by
  intro outages t'
  have hfind := TextStore.find?_withRatio
  have hloads : Loads TextStore.withRatio.opened ⟨"prod", "orders"⟩
      ((ratioDatabase .drifted).withVersion 1) _ (.dedicated []) :=
    ⟨TextStore.find?_opened.mpr hfind, TextStore.withRatio_reachable.placed _ _ hfind,
      ofObject_ratioDatabase, rfl⟩
  rcases unreliable_text_framed (r := {}) rfl TextStore.withRatio_reachable 7 ⟨"prod", "orders"⟩
    (fun _ => 7) outages with ⟨o, database, resources, h, hframed, -⟩ | ⟨h, -⟩
  · exact ⟨o, database, resources, h, hframed⟩
  · exact absurd ⟨_, _, _, hloads⟩ h

/-- **A specification that a pass changes.** The database of the store keeps a number in its
specification that no database has; after a pass the number is another one. -/
theorem reconcile_changes_spec :
    let t' := ((({} : Reconciler).reconcile 7 ⟨"prod", "orders"⟩).run (TextStore.collaborators 7)
      TextStore.withRatio).2
    TextStore.withRatio.Reachable ∧ ∃ o o',
      TextStore.withRatio.find? Database.kind.name ⟨"prod", "orders"⟩ = .ok (some o) ∧
      (Database.kind.ofObject o).isOk = true ∧
      t'.find? Database.kind.name ⟨"prod", "orders"⟩ = .ok (some o') ∧
      ¬ o'.spec.same o.spec = true := by
  intro t'
  have hreading : t'.reading = ((({} : Reconciler).reconcile 7 ⟨"prod", "orders"⟩).run
      (TextStore.Reading.collaborators 7) TextStore.withRatio.reading).2 :=
    (TextStore.mirrors_reading 7).state _ TextStore.withRatio
  have hchanged :
      ((t'.reading.objectAt (tableKey Database.kind.name ⟨"prod", "orders"⟩)).toOption.any
        (·.any fun o' => !o'.spec.same (ratioSpec .drifted))) = true := by
    rw [hreading, TextStore.reading_withRatio]
    decide +kernel
  rw [TextStore.objectAt_reading, Option.any_eq_true] at hchanged
  obtain ⟨found, hfound, hchanged⟩ := hchanged
  obtain ⟨o', rfl, hspec⟩ := (Option.any_eq_true _ _).mp hchanged
  have hfind : t'.find? Database.kind.name ⟨"prod", "orders"⟩ = .ok (some o') := by
    rw [TextStore.find?]
    cases hread : t'.objectAt (tableKey Database.kind.name ⟨"prod", "orders"⟩) with
    | error e =>
      rw [hread] at hfound
      cases hfound
    | ok found =>
      rw [hread] at hfound
      exact congrArg _ (Option.some.inj hfound)
  have hne : o'.spec.same (ratioSpec .drifted) = false := by simpa using hspec
  refine ⟨TextStore.withRatio_reachable, _, o', TextStore.find?_withRatio, ?_, hfind,
    Bool.eq_false_iff.mp hne⟩
  rw [ofObject_ratioDatabase]
  rfl

end Reconciler

end Converge
