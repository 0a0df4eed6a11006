import Homestead.Deck
import Homestead.Proofs.Game.History
import Homestead.Proofs.Ledger

/-!
# The ledger of a game

The log of a game says what the rules did to each seat's store (`Entry.postings`). A move changes
the store of each farm by just its postings (`Game.Steps.posts`), so at any time the store is what
the game started with and all postings since (`Game.History.balanced`). Starting a round takes the
workers back, and from then on those are missing that were placed for plays.
-/

namespace Homestead

/-! ## Postings of a log -/

namespace Entry

/-- What the rules did to a seat's store in a move, in order. -/
def postings (seat : Seat) : Entry → List Posting
  | move _ (.play place card) (.played p) =>
    if place = seat then
      [.paid card] ++ card.applications p.outcome.applied ++ [.installed card]
    else []
  | move _ (.cook place r n) (.cooked food) =>
    if place = seat then if food = 0 then [] else [.cooked r n food] else []
  | move g _ (.dispatched reports) =>
    match g.farm? seat with
    | some f => (reports.flatMap Report.firings).flatMap (f.posted seat)
    | none => []
  | _ => []

/-- Did the move start a round? -/
def startsRound : Entry → Bool
  | move _ .beginRound _ => true
  | _ => false

end Entry

/-- What the rules did to a seat's store, oldest first. -/
def postings (seat : Seat) (log : List Entry) : List Posting := log.flatMap (Entry.postings seat)

/-- What was logged since the last round started. -/
def thisRound (log : List Entry) : List Entry := log.rtakeWhile fun e => !e.startsRound

/-- The store is what the game started with and what was posted since, and the workers are there
but for those that were placed in this round. -/
structure Store.Balanced (setup : Setup) (seat : Seat) (log : List Entry) (s : Store) : Prop where
  goods : ∀ r, (s.balance r).toInt =
    setup.resources.total r + ((postings seat log).map (Posting.amount r)).sum
  points : s.points.toInt = ((postings seat log).map Posting.points).sum
  workers : s.workers.toNat + ((postings seat (thisRound log)).map Posting.placed).sum =
    s.family.toNat

variable {setup : Setup} {seat place : Seat} {log : List Entry} {e : Entry} {s t : Store}
  {farms : Seating Farm} {f f₀ f' : Farm} {ps : List Posting} {g g' : Game} {move : Move}
  {turn : Turn} {events : List (Seat × Event)} {reports : List Report}

theorem postings_concat (seat : Seat) (log : List Entry) (e : Entry) :
    postings seat (log ++ [e]) = postings seat log ++ e.postings seat := by
  simp [postings]

theorem thisRound_concat (log : List Entry) (e : Entry) :
    thisRound (log ++ [e]) = if e.startsRound then [] else thisRound log ++ [e] := by
  unfold thisRound
  rw [List.rtakeWhile_concat]
  cases e.startsRound <;> rfl

theorem Entry.postings_dispatched (hf : g.farm? seat = some f) (move : Move)
    (reports : List Report) :
    (Entry.move g move (.dispatched reports)).postings seat =
      (reports.flatMap Report.firings).flatMap (f.posted seat) := by
  cases move <;> simp only [postings, hf]

/-- Firings place no workers. -/
theorem Farm.placed_posted (f : Farm) (seat : Seat) (firings : List Firing) :
    ((firings.flatMap (f.posted seat)).map Posting.placed).sum = 0 := by
  apply List.sum_eq_zero
  intro k hk
  obtain ⟨x, hx, rfl⟩ := List.mem_map.1 hk
  obtain ⟨firing, -, hx⟩ := List.mem_flatMap.1 hx
  unfold posted at hx
  split at hx
  · split at hx
    · obtain ⟨i, -, hi⟩ := List.mem_filterMap.1 hx
      obtain ⟨e, -, rfl⟩ := Option.map_eq_some_iff.1 hi
      rfl
    · cases hx
  · cases hx

/-! ## Balanced stores -/

namespace Store.Balanced

theorem start (h : Store.ofSetup setup = .ok s) (seat : Seat) : s.Balanced setup seat [] := by
  have changed := Changes.of_moves (Moves.of_addAll h)
  refine ⟨fun r => ?_, changed.points, ?_⟩
  · have empty : (Store.empty.balance r).toInt = 0 := by
      rw [balance_empty]
      rfl
    have moved := changed.balance r
    change _ = (Store.empty.balance r).toInt + _ at moved
    rw [moved, empty, Int.add_comm]
    rfl
  · rw [changed.family]
    exact changed.workers.symm

/-- What is posted within a round keeps a store balanced. -/
theorem post (h : s.Balanced setup seat log) (posts : s.Posts (e.postings seat) t)
    (ongoing : e.startsRound = false) : t.Balanced setup seat (log ++ [e]) := by
  obtain ⟨goods, points, workers⟩ := h
  have family := posts.family
  constructor
  · intro r
    rw [postings_concat, List.map_append, List.sum_append, posts.balance, goods, Int.add_assoc]
  · rw [postings_concat, List.map_append, List.sum_append, posts.points, points]
  · have placed := posts.workers
    rw [thisRound_concat, ongoing, if_neg Bool.false_ne_true, postings_concat, List.map_append,
      List.sum_append, family]
    omega

/-- A round that starts takes the workers back. -/
theorem round (h : s.Balanced setup seat log)
    (posts : s.clearBonuses.returnWorkers.Posts (e.postings seat) t)
    (starts : e.startsRound = true) (none : ((e.postings seat).map Posting.placed).sum = 0) :
    t.Balanced setup seat (log ++ [e]) := by
  obtain ⟨goods, points, -⟩ := h
  constructor
  · intro r
    have changed : (t.balance r).toInt = (s.balance r).toInt + _ := posts.balance r
    rw [postings_concat, List.map_append, List.sum_append, changed, goods, Int.add_assoc]
  · have changed : t.points.toInt = s.points.toInt + _ := posts.points
    rw [postings_concat, List.map_append, List.sum_append, changed, points]
  · have family : t.family = s.family := posts.family
    have placed : s.family.toNat = t.workers.toNat + _ := posts.workers
    rw [none] at placed
    rw [thisRound_concat, starts, if_pos rfl, family]
    exact placed.symm

end Store.Balanced

/-! ## Moves -/

/-- Where one seat's farm is replaced, only that seat's store changes. -/
theorem Seating.posts_set (hf₀ : farms.get? place = some f₀) (posts : f₀.store.Posts ps f'.store)
    (hf : farms.get? seat = some f) :
    ∃ f'', (farms.set place f').get? seat = some f'' ∧
      f.store.Posts (if place = seat then ps else []) f''.store := by
  split
  · rename_i eq
    subst eq
    cases hf₀.symm.trans hf
    exact ⟨f', get?_set_self hf f', posts⟩
  · rename_i ne
    exact ⟨f, (get?_set_ne ne f').trans hf, .nil _⟩

namespace Game

theorem Dispatches.posts (h : Dispatches events g g' reports) (hf : g.farm? seat = some f) :
    ∃ f', g'.farm? seat = some f' ∧ f.SameCards f' ∧
      f.store.Posts ((reports.flatMap Report.firings).flatMap (f.posted seat)) f'.store := by
  induction h generalizing f with
  | nil => exact ⟨f, hf, .refl f, .nil _⟩
  | cons hfires _ _ ih =>
    obtain ⟨f₁, hf₁, cards, posts⟩ := hfires.posts hf
    obtain ⟨f', hf', cards', posts'⟩ := ih hf₁
    rw [cards.posted] at posts'
    refine ⟨f', hf', cards.trans cards', ?_⟩
    rw [List.flatMap_cons, List.flatMap_append]
    exact posts.append posts'

/-- Within a round a move changes each seat's store by its postings. -/
theorem Steps.posts (h : g.Steps move g' turn) (ongoing : move ≠ .beginRound)
    (hf : g.farm? seat = some f) :
    ∃ f', g'.farm? seat = some f' ∧
      f.store.Posts ((Entry.move g move turn).postings seat) f'.store := by
  cases h with
  | refused =>
    have none (cause : Refusal) : (Entry.move g move (.refused cause)).postings seat = [] := by
      cases move <;> rfl
    rw [none]
    exact ⟨f, hf, .nil _⟩
  | played hplays =>
    cases hplays with
    | played hf₀ _ checked hplay => exact Seating.posts_set hf₀ (hplay.posts checked) hf
  | @discarded place _ f₀ _ f' hf₀ hremove =>
    have kept : f₀.store.Posts [] f'.store := by
      rw [(Farm.of_remove?_eq_some hremove).2.2]
      exact .nil _
    have posts := Seating.posts_set hf₀ kept hf
    rwa [ite_self] at posts
  | @discardedAll place f₀ hf₀ =>
    have kept : f₀.store.Posts [] f₀.removeAll.2.store := .nil _
    have posts := Seating.posts_set hf₀ kept hf
    rwa [ite_self] at posts
  | cooked hf₀ hcook => exact Seating.posts_set hf₀ (Farm.posts_cook hcook) hf
  | dispatched _ hd =>
    obtain ⟨f', hf', -, posts⟩ := hd.posts hf
    rw [Entry.postings_dispatched hf]
    exact ⟨f', hf', posts⟩
  | roundBegun => exact absurd rfl ongoing
  | cleared => exact ⟨f, hf, .nil _⟩
  | rebuilt => exact ⟨f, hf, .nil _⟩

/-- A round starts with all workers back, and then its start is dispatched. -/
theorem Steps.posts_round (h : g.Steps .beginRound g' turn) (hf : g.farm? seat = some f) :
    ∃ f', g'.farm? seat = some f' ∧
      f.startRound.store.Posts ((Entry.move g .beginRound turn).postings seat) f'.store ∧
      (((Entry.move g .beginRound turn).postings seat).map Posting.placed).sum = 0 := by
  cases h with
  | refused h =>
    obtain ⟨result, -, h⟩ := Checked.bind_eq_ok.1 h
    cases Checked.pure_eq_ok.1 h
  | dispatched dispatch => cases dispatch
  | @roundBegun round _ reports _ hd =>
    have begun : (g.begun round).farm? seat = some f.startRound := by
      rw [farm?, Game.begun, Seating.get?_map]
      exact congrArg _ hf
    obtain ⟨f', hf', -, posts⟩ := hd.posts begun
    rw [(Farm.SameCards.startRound f).posted] at posts
    rw [Entry.postings_dispatched hf]
    exact ⟨f', hf', posts, f.placed_posted seat _⟩

/-! ## Histories -/

/-- In a game whose stores only the rules change, every store is balanced. -/
theorem History.balanced (h : History (fun f f' => f'.store = f.store) setup log g)
    (hf : g.farm? seat = some f) : f.store.Balanced setup seat log := by
  induction h generalizing f with
  | start hstart => exact .start (store_of_start hstart hf) seat
  | @move log g m g' turn _ hstep ih =>
    have step := Steps.of_step hstep
    obtain ⟨f₀, hf₀⟩ := step.exists_farm hf
    have balanced := ih hf₀
    by_cases begins : m = .beginRound
    · subst begins
      obtain ⟨f', hf', posts, none⟩ := step.posts_round hf₀
      cases hf'.symm.trans hf
      exact balanced.round posts rfl none
    · obtain ⟨f', hf', posts⟩ := step.posts begins hf₀
      cases hf'.symm.trans hf
      have ongoing : (Entry.move g m turn).startsRound = false := by
        cases m <;> first | rfl | exact absurd rfl begins
      exact balanced.post posts ongoing
  | @edit log g place f₀ f' _ hf₀ same ih =>
    have kept : f₀.store.Posts [] f'.store := same ▸ .nil _
    have inside := (Seating.isSome_get? ..).1 (Option.isSome_of_eq_some hf)
    rw [withFarm, Seating.size_set] at inside
    obtain ⟨f₁, hf₁⟩ := Option.isSome_iff_exists.1 ((Seating.isSome_get? ..).2 inside)
    obtain ⟨f'', hf'', posts⟩ := Seating.posts_set hf₀ kept hf₁
    cases hf''.symm.trans hf
    rw [ite_self] at posts
    exact (ih hf₁).post posts rfl

end Game

/-- Nothing is lost or created outside the rules. In exact integers, every balance of every farm is
what the game started with and what each posting since adds to it: the gains and the boon of each
effect that was applied less its costs, less the prices and the flat cost of each card played, less
what was cooked, and the food that it became. The victory points are those of the effects applied
and of the cards played less those given up for cards; and of the workers those are missing that
were placed for cards since the round started. -/
theorem nothing_lost_or_created
    (h : Game.History (fun f f' => f'.store = f.store) setup log g)
    (hf : g.farm? seat = some f) :
    (∀ r, (f.store.balance r).toInt =
        setup.resources.total r + ((postings seat log).map (Posting.amount r)).sum) ∧
      f.store.points.toInt = ((postings seat log).map Posting.points).sum ∧
      f.store.workers.toNat + ((postings seat (thisRound log)).map Posting.placed).sum =
        f.store.family.toNat := by
  obtain ⟨goods, points, workers⟩ := h.balanced hf
  exact ⟨goods, points, workers⟩

/-- A seat plays a joinery, a carpenter and a fireplace, is refused a well, makes food of a wood in
the harvest and of its only vegetable after it, and in the next round sends a worker for a corn
scoop. -/
theorem nothing_lost_or_created_joinery :
    ∃ log g f, Game.History (fun f f' => f'.store = f.store)
        ⟨1, .strict, ⟨[(.wood, 2), (.stone, 2), (.clay, 2), (.vegetable, 1), (.food, 1)]⟩, 2, 2⟩
        log g ∧
      g.farm? ⟨0⟩ = some f ∧ (postings ⟨0⟩ log).length = 11 ∧
      (f.store.balance .food).toInt =
        1 + ((postings ⟨0⟩ log).map (Posting.amount .food)).sum ∧ f.store.balance .food = 4 ∧
      f.store.points.toInt = ((postings ⟨0⟩ log).map Posting.points).sum ∧ f.store.points = 3 ∧
      1 + ((postings ⟨0⟩ (thisRound log)).map Posting.placed).sum = 2 := by
  have started : Game.History (fun f f' => f'.store = f.store)
      ⟨1, .strict, ⟨[(.wood, 2), (.stone, 2), (.clay, 2), (.vegetable, 1), (.food, 1)]⟩, 2, 2⟩
      [] _ := .start rfl
  have joinery := started.move (rfl : Game.step _ (.play ⟨0⟩ Deck.joinery) = .ok (_, _))
  have carpenter := joinery.move (rfl : Game.step _ (.play ⟨0⟩ Deck.carpenter) = .ok (_, _))
  have fireplace := carpenter.move (rfl : Game.step _ (.play ⟨0⟩ Deck.fireplace) = .ok (_, _))
  have well := fireplace.move (rfl : Game.step _ (.play ⟨0⟩ Deck.well) = .ok (_, _))
  have harvested := well.move (rfl : Game.step _ .harvest = .ok (_, _))
  have cooked := harvested.move (rfl : Game.step _ (.cook ⟨0⟩ .vegetable 1) = .ok (_, _))
  have none := cooked.move (rfl : Game.step _ (.cook ⟨0⟩ .vegetable 1) = .ok (_, _))
  have begun := none.move (rfl : Game.step _ .beginRound = .ok (_, _))
  have scoop := begun.move
    (rfl : Game.step _ (.play ⟨0⟩ (Deck.cornScoop.withPrice (Price.free.withWorkers 1))) =
      .ok (_, _))
  obtain ⟨goods, points, workers⟩ := nothing_lost_or_created scoop (rfl : Game.farm? _ ⟨0⟩ = some _)
  exact ⟨_, _, _, scoop, rfl, rfl, goods .food, rfl, points, rfl, workers⟩

end Homestead
