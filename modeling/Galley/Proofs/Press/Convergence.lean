import Galley.Proofs.Asset.CacheUse
import Galley.Proofs.Press.Assembly

/-!
# Resolutions that share a cache converge

Any number of fonts and images are resolved at the same time. Several of them may miss in one slot
and fetch different files for it; the first file that is kept is the one that all of them get.

**Theorem (`resolutions_converge`).** In any history, resolutions that succeed and use a slot last
in the same period have the same font, or the same image apart from its id, and one that looks into
the slot later in the period fetches nothing.

The last use of a cache tells what a resolution ends with (`resolution_looks`), and in one period
everyone is served the same value from a slot (`History.served_unique`).
-/

namespace Galley.Press

open Asset
open Document (ImageUsage)

variable {s : Settings.Fetching} {c q : Shared Outcome} {es : List Event}
  {i j k l : Nat} {slot : Slot} {o o' : Outcome}

/-- What an item ends with, by its last use of a cache. -/
def ItemEnds : Item → Use → Outcome → Prop
  | .inl r, use, .inl o => FontEnds r.face use o
  | .inr u, use, .inr o => ImageEnds u.id use o
  | _, _, _ => False

theorem resolution_looks (s : Settings.Fetching) (item : Item) :
    (resolution s item).Looks (ItemEnds item) := by
  cases item with
  | inl r => exact .map (r.resolve_looks s)
  | inr u => exact .map (resolveSource_looks s.producerLimit u.id s.producerLimit u.source)

/-- The outcome is a font or an image. -/
def Succeeds (o : Outcome) : Prop :=
  (∃ font, o = .inl (.ok font)) ∨ ∃ image, o = .inr (.ok image)

/-- A success shows a value: the font, or the image under the id that was asked for. -/
def Shows (o : Outcome) : Held → Prop
  | .font font => o = .inl (.ok font)
  | .image image => ∃ id, o = .inr (.ok { image with id := id })

/-- A success was served last what it shows, or it used no cache. -/
theorem ItemEnds.of_succeeds {item : Item} {use : Use} (h : ItemEnds item use o) (ho : Succeeds o) :
    use = .none ∨ ∃ slot held, use = .served slot held ∧ Shows o held := by
  cases use with
  | none => exact .inl rfl
  | missed slot =>
    rcases item with r | u <;> rcases o with o | o <;> try exact h.elim
    · obtain ⟨-, fault, rfl⟩ := h
      simp [Succeeds] at ho
    · obtain ⟨fault, rfl⟩ := h
      simp [Succeeds] at ho
  | served slot held =>
    refine .inr ⟨slot, held, rfl, ?_⟩
    rcases item with r | u <;> rcases o with o | o <;> try exact h.elim
    · obtain ⟨-, font, rfl, rfl⟩ := h
      rfl
    · obtain ⟨image, rfl, rfl⟩ := h
      exact ⟨u.id, rfl⟩

section Tasks

variable {item : Item} (h : History c es q) (hplan : c.plans[i]? = some (resolution s item))
  (hdone : q.plans[i]? = some (.done o))

include h hplan hdone

/-- A task ends with what its last use of a cache says. -/
theorem item_ends : ItemEnds item (lastUse (exchanges i es)) o := by
  obtain ⟨p, hp, hanswered⟩ := h.answered hplan
  rw [hdone] at hp
  cases hp
  exact (resolution_looks s item).ends hanswered

/-- A success was served what it shows at its last use. -/
theorem servedAt_of_succeeds (ho : Succeeds o) (huse : FinalUse es i k slot) :
    ∃ held, ServedAt es i k slot held ∧ Shows o held := by
  have hends := item_ends h hplan hdone
  have hlast := huse.lastUse
  have hslot := huse.1.slot?_eq hlast
  rcases hends.of_succeeds ho with hnone | ⟨slot', held, hserved, hshows⟩
  · rw [hnone] at hslot
    cases hslot
  · rw [hserved] at hslot hlast
    cases hslot
    exact ⟨held, hlast, hshows⟩

end Tasks

/-- Successes that use a slot last in one period show the same value. -/
theorem shows_same {item item' : Item} (h : History c es q)
    (hplan : c.plans[i]? = some (resolution s item))
    (hplan' : c.plans[j]? = some (resolution s item'))
    (hdone : q.plans[i]? = some (.done o)) (hdone' : q.plans[j]? = some (.done o'))
    (ho : Succeeds o) (ho' : Succeeds o') (hk : FinalUse es i k slot) (hl : FinalUse es j l slot)
    (hperiod : period es slot.shelf k = period es slot.shelf l) :
    ∃ held, Shows o held ∧ Shows o' held := by
  obtain ⟨held, hserved, hshows⟩ := servedAt_of_succeeds h hplan hdone ho hk
  obtain ⟨held', hserved', hshows'⟩ := servedAt_of_succeeds h hplan' hdone' ho' hl
  obtain rfl := h.served_unique hserved hserved' hperiod
  exact ⟨held, hshows, hshows'⟩

/-- Nothing is fetched for a task that looks into a slot and is served. -/
theorem not_fetched {item : Item} (h : History c es q)
    (hplan : c.plans[j]? = some (resolution s item)) {answer : slot.get.Answer} {held : Held}
    (hget : es[l]? = some (.asked j slot.get answer)) (hserved : ServedAt es j l slot held)
    (url : String) (mode : Mode) (reply : Reply) : .asked j (.fetch url mode) reply ∉ es := by
  obtain ⟨p, -, hanswered⟩ := h.answered hplan
  have hmem : ∀ {r : Request} {a : r.Answer}, .asked j r a ∈ es → ⟨r, a⟩ ∈ exchanges j es := by
    intro r a hmem
    exact List.mem_filterMap.2 ⟨_, hmem, by simp [Event.exchange?]⟩
  have huse : Exchange.use ⟨slot.get, answer⟩ = .served slot held := by
    simpa [ServedAt, hget, Event.use, Event.exchange?] using hserved
  intro hfetch
  have hfalse := (resolution_looks s item).not_isFetch hanswered
    (hmem (List.mem_of_getElem? hget)) huse _ (hmem hfetch)
  cases hfalse

/-- Tasks agree about what they got from the caches in a history. -/
structure Converged (tasks : List Item) (es : List Event) (plans : List (Plan Outcome)) :
    Prop where
  /-- A font was got from the slot of its face. -/
  fontUse : ∀ {i : Nat} {r : FontRequest} {font : LoadedFont}, tasks[i]? = some (.inl r) →
    plans[i]? = some (.done (.inl (.ok font))) → ∃ k, FinalUse es i k (.font r.face)
  fonts : ∀ {i j k l : Nat} {r r' : FontRequest} {font font' : LoadedFont},
    tasks[i]? = some (.inl r) → tasks[j]? = some (.inl r') → r.face = r'.face →
    plans[i]? = some (.done (.inl (.ok font))) → plans[j]? = some (.done (.inl (.ok font'))) →
    FinalUse es i k (.font r.face) → FinalUse es j l (.font r'.face) →
    period es .fonts k = period es .fonts l → font = font'
  images : ∀ {i j k l : Nat} {u u' : ImageUsage} {image image' : LoadedImage} {url : String},
    tasks[i]? = some (.inr u) → tasks[j]? = some (.inr u') →
    plans[i]? = some (.done (.inr (.ok image))) → plans[j]? = some (.done (.inr (.ok image'))) →
    FinalUse es i k (.image url) → FinalUse es j l (.image url) →
    period es .images k = period es .images l →
    image.format = image'.format ∧ image.data = image'.data ∧ image.pixels = image'.pixels
  /-- A look into a slot after a success there, in the same period, saves all fetching. -/
  noFetch : ∀ {i j k l : Nat} {item item' : Item} {o : Outcome} {slot : Slot}
    {answer : slot.get.Answer}, tasks[i]? = some item → tasks[j]? = some item' →
    plans[i]? = some (.done o) → Succeeds o → FinalUse es i k slot → k < l →
    period es slot.shelf k = period es slot.shelf l → es[l]? = some (.asked j slot.get answer) →
    ∀ url mode reply, .asked j (.fetch url mode) reply ∉ es

/-- **Resolutions converge**, in any history of theirs with registrations and clears. -/
theorem resolutions_converge {tasks : List Item} {st : Store}
    (h : History ⟨tasks.map (resolution s), st⟩ es q) : Converged tasks es q.plans := by
  have hplan : ∀ {i : Nat} {item : Item}, tasks[i]? = some item →
      (tasks.map (resolution s))[i]? = some (resolution s item) := by
    intro i item hitem
    simp [hitem]
  constructor
  case fontUse =>
    intro i r font hi hdone
    have hends := item_ends h (hplan hi) hdone
    obtain ⟨k, hk, -⟩ := exists_finalUse_of_served (FontEnds.of_ok hends)
    exact ⟨k, hk⟩
  case fonts =>
    intro i j k l r r' font font' hi hj hface hdone hdone' hk hl hperiod
    rw [hface] at hk
    obtain ⟨held, hshows, hshows'⟩ := shows_same h (hplan hi) (hplan hj) hdone hdone'
      (.inl ⟨font, rfl⟩) (.inl ⟨font', rfl⟩) hk hl hperiod
    cases held with
    | image image =>
      obtain ⟨id, hid⟩ := hshows
      cases hid
    | font found =>
      cases hshows
      cases hshows'
      rfl
  case images =>
    intro i j k l u u' image image' url hi hj hdone hdone' hk hl hperiod
    obtain ⟨held, hshows, hshows'⟩ := shows_same h (hplan hi) (hplan hj) hdone hdone'
      (.inr ⟨image, rfl⟩) (.inr ⟨image', rfl⟩) hk hl hperiod
    cases held with
    | font font => cases hshows
    | image found =>
      obtain ⟨id, hid⟩ := hshows
      obtain ⟨id', hid'⟩ := hshows'
      cases hid
      cases hid'
      exact ⟨rfl, rfl, rfl⟩
  case noFetch =>
    intro i j k l item item' o slot answer hi hj hdone ho hk hkl hperiod hget
    obtain ⟨held, hserved, -⟩ := servedAt_of_succeeds h (hplan hi) hdone ho hk
    have huse : UsesAt es j l slot := by
      simp [UsesAt, hget, Event.use, Event.exchange?, Exchange.slot?_use, Slot.slot?_get]
    exact not_fetched h (hplan hj) hget (h.served_later hserved hkl huse hperiod)

/-! ## A race -/

/-- The address of two pictures. -/
def catUrl : String := "https://pictures.example/cat"

/-- Three requests for one face, and two pictures at one address. -/
def race : List Item := [
  .inl ⟨"Inter", 400, .normal⟩, .inl ⟨"'INTER', serif", 400, .normal⟩, .inl ⟨"inter", 400, .normal⟩,
  .inr ⟨"left", .url catUrl⟩, .inr ⟨"right", .deferred ⟨"cat", 0⟩⟩]

/-- The one font that is registered, and has to be fetched. -/
def interFile : Font.Descriptor := ⟨400, .normal, .url "inter.ttf"⟩

/-- The face that is raced for. -/
def interFace : Font.Face := ⟨"inter", 400, .normal⟩

/-- The font in a file. -/
def interFont (file : String) : LoadedFont :=
  ⟨interFace, Bytes.ofText file, some "inter.ttf"⟩

/-- The store with that font. -/
def raceStore : Store := Store.empty.register "Inter" interFile

/-- A picture. -/
def cat (id version : String) : LoadedImage := .of id .gif (Bytes.ofText ("GIF" ++ version))

/-- Two requests miss and fetch different files; so do two pictures, after the fonts are cleared. -/
def raceEvents : List Event := [
  .asked 0 (.cachedFont interFace) none, .asked 1 (.cachedFont interFace) none,
  .asked 0 (.registered interFace) (some interFile),
  .asked 1 (.registered interFace) (some interFile),
  .asked 0 (.fetch "inter.ttf" .default) (.ok ⟨200, Bytes.ofText "one"⟩),
  .asked 1 (.fetch "inter.ttf" .default) (.ok ⟨200, Bytes.ofText "two"⟩),
  .asked 1 (.keepFont (interFont "two")) (interFont "two"),
  .asked 0 (.keepFont (interFont "one")) (interFont "two"),
  .asked 2 (.cachedFont interFace) (some (interFont "two")),
  .cleared .fonts,
  .asked 3 (.cachedImage catUrl) none,
  .asked 4 (.produce ⟨"cat", 0⟩) (.ok (.url catUrl)),
  .asked 4 (.cachedImage catUrl) none,
  .asked 3 (.fetch catUrl .preferCache) (.ok ⟨200, Bytes.ofText "GIF87a"⟩),
  .asked 4 (.fetch catUrl .preferCache) (.ok ⟨200, Bytes.ofText "GIF89a"⟩),
  .asked 4 (.keepImage catUrl (cat "right" "89a")) (cat "right" "89a"),
  .asked 3 (.keepImage catUrl (cat "left" "87a")) (cat "right" "89a")]

/-- What everyone ends with: the file that was kept first. -/
def racePlans : List (Plan Outcome) := [
  .done (.inl (.ok (interFont "two"))), .done (.inl (.ok (interFont "two"))),
  .done (.inl (.ok (interFont "two"))), .done (.inr (.ok (cat "left" "89a"))),
  .done (.inr (.ok (cat "right" "89a")))]

/-- What a network sends that has one file, and what a producer hands out. -/
def server (file : String) : Answers :=
  ⟨fun _ _ => .ok ⟨200, Bytes.ofText file⟩, fun _ => .ok (.url catUrl)⟩

theorem race_history :
    ∃ st, History ⟨race.map (resolution .default), raceStore⟩ raceEvents ⟨racePlans, st⟩ :=
  ⟨_, .cons (.asked 0 (server "") rfl) <| .cons (.asked 1 (server "") rfl) <|
    .cons (.asked 0 (server "") rfl) <| .cons (.asked 1 (server "") rfl) <|
    .cons (.asked 0 (server "one") rfl) <| .cons (.asked 1 (server "two") rfl) <|
    .cons (.asked 1 (server "") rfl) <| .cons (.asked 0 (server "") rfl) <|
    .cons (.asked 2 (server "") rfl) <| .cons (.cleared .fonts) <|
    .cons (.asked 3 (server "") rfl) <| .cons (.asked 4 (server "") rfl) <|
    .cons (.asked 4 (server "") rfl) <|
    .cons (.asked 3 (server "GIF87a") rfl) <| .cons (.asked 4 (server "GIF89a") rfl) <|
    .cons (.asked 4 (server "") rfl) <| .cons (.asked 3 (server "") rfl) <| .nil _⟩

/-- The two requests that fetched, the late one and the two pictures meet. -/
theorem race_converged :
    Converged race raceEvents racePlans ∧
      (FinalUse raceEvents 0 7 (.font interFace) ∧ FinalUse raceEvents 1 6 (.font interFace) ∧
        period raceEvents .fonts 7 = period raceEvents .fonts 6) ∧
      (FinalUse raceEvents 3 16 (.image catUrl) ∧ FinalUse raceEvents 4 15 (.image catUrl) ∧
        period raceEvents .images 16 = period raceEvents .images 15) ∧
      ∀ url mode reply, .asked 2 (.fetch url mode) reply ∉ raceEvents := by
  obtain ⟨st, hhistory⟩ := race_history
  have hconverged : Converged race raceEvents racePlans := resolutions_converge hhistory
  have hfirst : FinalUse raceEvents 1 6 (.font interFace) := by decide
  refine ⟨hconverged, by decide, by decide, ?_⟩
  have hlook : raceEvents[8]? =
      some (.asked 2 (Slot.font interFace).get (some (interFont "two"))) := rfl
  have hlate : 6 < 8 := by decide
  exact hconverged.noFetch rfl rfl rfl (.inl ⟨_, rfl⟩) hfirst hlate rfl hlook

end Galley.Press
