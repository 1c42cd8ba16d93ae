import Galley.Proofs.Asset.Producers
import Galley.Proofs.Press.CacheContents

/-!
# Every image source by its own rule

Images are resolved from empty caches on, among fonts and other images, while fonts are registered
and caches cleared. The world outside answers in any way.

**Theorem (`source_rules`).** Apart from producers, an image asks something only if its chain of
producers ends in a web address (`IsWebAddress`); in all other cases the chain leaves it done, and
the store as it was. A text that is no web address and no data URI is refused as a local file, and
bytes are an image if their format is known. Whoever kept it, an image has the id that it was asked
for under, and the format that its file shows.
-/

namespace Galley.Asset

open Image (Source)

/-! ## Web addresses -/

/-- Behind blanks, the text begins with a scheme of the web, in upper or lower case. -/
def IsWebAddress (text : String) : Prop :=
  ∃ blanks scheme rest : List Char, text.toList = blanks ++ scheme ++ rest ∧
    (∀ c ∈ blanks, Text.isBlank c = true) ∧
    (Text.lowerAscii scheme = "http://".toList ∨ Text.lowerAscii scheme = "https://".toList)

theorem startsWith_lowerAscii_iff {p : String} {s : List Char} :
    Text.startsWith p (Text.lowerAscii s) = true ↔
      ∃ scheme rest, s = scheme ++ rest ∧ Text.lowerAscii scheme = p.toList := by
  rw [Text.startsWith, List.isPrefixOf_iff_prefix]
  constructor
  · rintro ⟨rest, hrest⟩
    obtain ⟨scheme, rest', rfl, hscheme, -⟩ := List.map_eq_append_iff.1 hrest.symm
    exact ⟨scheme, rest', rfl, hscheme⟩
  · rintro ⟨scheme, rest, rfl, hscheme⟩
    exact ⟨Text.lowerAscii rest, by simp [← hscheme, Text.lowerAscii]⟩

theorem not_isBlank_of_toLower {c : Char} (h : c.toLower = 'h') : Text.isBlank c = false := by
  unfold Char.toLower at h
  split at h
  · rename_i hupper
    have hlower : 65 ≤ c.toNat := hupper.1
    have hle : c.toNat ≤ 90 := hupper.2
    simp only [Text.isBlank, Bool.or_eq_false_iff, Bool.and_eq_false_imp, decide_eq_true_eq,
      decide_eq_false_iff_not, beq_eq_false_iff_ne]
    omega
  · rw [h]
    decide

theorem isRemote_iff {text : String} : isRemote text = true ↔ IsWebAddress text := by
  rw [isRemote, Bool.or_eq_true, startsWith_lowerAscii_iff, startsWith_lowerAscii_iff]
  constructor
  · have hsplit : text.toList = text.toList.takeWhile Text.isBlank ++ Text.trimStart text.toList :=
      List.takeWhile_append_dropWhile.symm
    have hblank : ∀ c ∈ text.toList.takeWhile Text.isBlank, Text.isBlank c = true :=
      fun c hc => List.mem_takeWhile_imp hc
    rintro (⟨scheme, rest, htrim, hscheme⟩ | ⟨scheme, rest, htrim, hscheme⟩)
    · rw [htrim, ← List.append_assoc] at hsplit
      exact ⟨_, scheme, rest, hsplit, hblank, .inl hscheme⟩
    · rw [htrim, ← List.append_assoc] at hsplit
      exact ⟨_, scheme, rest, hsplit, hblank, .inr hscheme⟩
  · rintro ⟨blanks, scheme, rest, htext, hblanks, hscheme⟩
    -- The first letter of a scheme is no blank, so exactly the blanks are trimmed.
    have htrim : Text.trimStart text.toList = scheme ++ rest := by
      obtain ⟨c, cs, rfl⟩ : ∃ c cs, scheme = c :: cs :=
        List.exists_cons_of_ne_nil (by rintro rfl; simp [Text.lowerAscii] at hscheme)
      have hhead : c.toLower = 'h' := by
        rcases hscheme with hscheme | hscheme <;> exact (List.cons.inj hscheme).1
      rw [htext, Text.trimStart, List.append_assoc, List.dropWhile_append_of_pos hblanks,
        List.cons_append, List.dropWhile_cons_of_neg]
      simp [not_isBlank_of_toLower hhead]
    exact hscheme.imp (fun h => ⟨scheme, rest, htrim, h⟩) fun h => ⟨scheme, rest, htrim, h⟩

/-- A web address is no data URI. -/
theorem IsWebAddress.ofText {text : String} (h : IsWebAddress text) :
    Source.ofText text = .url text := by
  rw [← isRemote_iff] at h
  rw [Source.ofText, if_neg]
  intro hdata
  obtain ⟨rest, hrest⟩ := List.isPrefixOf_iff_prefix.1 hdata
  rw [isRemote, ← hrest] at h
  cases h

/-! ## What a source asks -/

section Source

variable {limit n : Nat} {id : String} {source last : Source} {log : List Exchange}
  {p : Plan (Except Fault LoadedImage)}

/-- Without a web address, nothing is asked. -/
theorem exists_done_of_isFinal (h : last.IsFinal) (hurl : ∀ url, last = .url url → ¬ IsWebAddress url)
    (limit : Nat) (id : String) (n : Nat) :
    ∃ o, (resolveSource limit id n last).outcome = .done o := by
  rw [resolveSource_of_isFinal h limit id n 0]
  cases last with
  | deferred producer => exact absurd rfl (h producer)
  | dataUri uri => exact ⟨resolveDataUri id uri, rfl⟩
  | bytes bytes => exact ⟨resolveBytes id bytes, rfl⟩
  | url url =>
    have hremote : ¬ isRemote url = true := isRemote_iff.not.2 (hurl url rfl)
    exact ⟨_, resolveUrl_of_not_isRemote hremote id⟩

theorem webAddress_of_isFinal (hfinal : last.IsFinal)
    (h : (resolveSource limit id n last).outcome.Answered log p) (hlog : log ≠ []) :
    ∃ url, last = .url url ∧ IsWebAddress url := by
  by_contra hnone
  have hurl : ∀ url, last = .url url → ¬ IsWebAddress url :=
    fun url hlast hweb => hnone ⟨url, hlast, hweb⟩
  obtain ⟨o, hdone⟩ := exists_done_of_isFinal hfinal hurl limit id n
  rw [hdone] at h
  exact hlog h.of_done.1

/-- **Who asks more than producers has a web address** at the end of a chain. -/
theorem exists_webAddress (h : (resolveSource limit id n source).outcome.Answered log p)
    {x : Exchange} (hx : x ∈ log) (hother : ∀ producer, x.1 ≠ .produce producer) :
    ∃ chain rest url, log = chain ++ rest ∧ HandsOut source chain (.url url) ∧
      chain.length ≤ n ∧ IsWebAddress url := by
  induction n generalizing source log with
  | zero =>
    rcases source.isFinal_or with hfinal | ⟨producer, rfl⟩
    · obtain ⟨url, rfl, hweb⟩ := webAddress_of_isFinal hfinal h (List.ne_nil_of_mem hx)
      exact ⟨[], log, url, rfl, .nil _, Nat.le_refl 0, hweb⟩
    · obtain ⟨rfl, -⟩ : log = [] ∧ _ := Plan.Answered.of_done h
      cases hx
  | succ n ih =>
    rcases source.isFinal_or with hfinal | ⟨producer, rfl⟩
    · obtain ⟨url, rfl, hweb⟩ := webAddress_of_isFinal hfinal h (List.ne_nil_of_mem hx)
      exact ⟨[], log, url, rfl, .nil _, Nat.zero_le _, hweb⟩
    · rw [resolveSource_deferred] at h
      cases h with
      | nil => cases hx
      | @cons _ _ answer log _ h =>
        have hlater : x ∈ log :=
          (List.mem_cons.1 hx).resolve_left fun heq => hother producer (heq ▸ rfl)
        cases answer with
        | error report =>
          obtain ⟨rfl, -⟩ := h.of_done
          cases hlater
        | ok next =>
          obtain ⟨chain, rest, url, rfl, hchain, hlength, hweb⟩ := ih h hlater
          exact ⟨_ :: chain, rest, url, rfl, .cons hchain, Nat.succ_le_succ hlength, hweb⟩

end Source

end Galley.Asset

namespace Galley.Press

open Asset
open Image (Source)

variable {s : Settings.Fetching} {q : Shared Outcome} {es : List Event} {i : Nat} {id : String}
  {source e : Source} {chain rest : List Exchange}

/-- What becomes of a task whose producers end in a source. -/
structure Ruled (e : Source) (es : List Event) (i : Nat) (left : Plan Outcome) : Prop where
  fetches : ∀ url mode reply, .asked i (.fetch url mode) reply ∈ es →
    IsWebAddress url ∧ e = .ofText url
  others : (¬ ∃ url, IsWebAddress url ∧ e = .ofText url) →
    (∀ r answer, .asked i r answer ∈ es → ∀ st, r.after st = st) ∧ ∃ o, left = .done (.inr o)
  localFile : ∀ text, e = .ofText text → ¬ IsWebAddress text →
    Text.startsWith "data:" text.toList = false → ∃ fault : Fault,
      fault.report.code = .localFileNotSupported ∧ left = .done (.inr (.error fault))
  bytes : ∀ bytes, e = .bytes bytes → ∃ o, left = .done (.inr o) ∧
    ((∃ image, o = .ok image) ↔ ∃ format, Image.Format.detect? bytes = some format)
  format : ∀ image, left = .done (.inr (.ok image)) →
    ((∃ url, e = .url url) ∨ ∃ bytes, e = .bytes bytes) →
      Image.Format.detect? image.data = some image.format

/-- An image task among others, by the sources that its producers may end in. -/
structure FollowsRules (s : Settings.Fetching) (id : String) (source : Source) (es : List Event)
    (i : Nat) (left : Plan Outcome) : Prop where
  /-- Anything but a producer is asked for a web address only. -/
  asks : ∀ r answer, .asked i r answer ∈ es → (∀ producer, r ≠ .produce producer) →
    ∃ chain rest url, exchanges i es = chain ++ rest ∧ HandsOut source chain (.ofText url) ∧
      chain.length ≤ s.producerLimit ∧ IsWebAddress url
  ids : ∀ image, left = .done (.inr (.ok image)) → image.id = id
  rule : ∀ chain rest e, exchanges i es = chain ++ rest → HandsOut source chain e → e.IsFinal →
    chain.length ≤ s.producerLimit → Ruled e es i left

theorem resolveBytes_ok_iff {bytes : Bytes} : (∃ image, resolveBytes id bytes = .ok image) ↔
    ∃ format, Image.Format.detect? bytes = some format := by
  rw [resolveBytes]
  cases Image.Format.detect? bytes <;> simp

theorem resolveBytes_format {bytes : Bytes} {image : LoadedImage}
    (h : resolveBytes id bytes = .ok image) :
    Image.Format.detect? image.data = some image.format := by
  rw [resolveBytes] at h
  cases hformat : Image.Format.detect? bytes with
  | none =>
    rw [hformat] at h
    cases h
  | some format =>
    rw [hformat] at h
    cases h
    exact hformat

section Tasks

variable {c : Shared Outcome} {p : Plan (Except Fault LoadedImage)} (h : History c es q)
  (hstore : c.store.Sound) (hplans : ∀ p ∈ c.plans, p.Asks Request.Sound)
  (hplan : c.plans[i]? = some (resolution s (.inr ⟨id, source⟩)))
  (hlog : exchanges i es = chain ++ rest)

include h hstore hplans hplan hlog

/-- An image from an address has the format that its file shows. -/
theorem format_of_url {url : String} {image : LoadedImage}
    (hdone : q.plans[i]? = some (.done (.inr (.ok image)))) (hchain : OnlyProducers chain)
    (hrest : (resolveUrl id url).outcome.Answered rest (.done (.ok image))) :
    Image.Format.detect? image.data = some image.format := by
  obtain ⟨held, hserved⟩ := resolveUrl_served hrest
  have hends : ImageEnds id (lastUse (exchanges i es)) (.ok image) := item_ends h hplan hdone
  rw [hlog, hchain.lastUse_append, hserved] at hends
  obtain ⟨found, rfl, himage⟩ := hends
  cases himage
  rw [← hchain.lastUse_append, ← hlog] at hserved
  obtain ⟨k, -, hk⟩ := exists_finalUse_of_served hserved
  exact (h.served_sound hstore hplans hk).format

/-- A task whose producers end in a source goes by the rule for that source. -/
theorem ruled (hleft : q.plans[i]? = some (p.bind fun o => .done (.inr o)))
    (hchain : OnlyProducers chain) (hfinal : e.IsFinal)
    (hrest : (resolveSource s.producerLimit id 0 e).outcome.Answered rest p) :
    Ruled e es i (p.bind fun o => .done (.inr o)) := by
  have hmem : ∀ {r : Request} {answer : r.Answer}, .asked i r answer ∈ es →
      (∃ producer, r = .produce producer) ∨ ⟨r, answer⟩ ∈ rest := fun hasked => by
    have hlogged := mem_exchanges.2 hasked
    rw [hlog] at hlogged
    exact (List.mem_append.1 hlogged).imp_left (hchain _)
  have hdone : ∀ {o : Except Fault LoadedImage},
      (resolveSource s.producerLimit id 0 e).outcome = .done o → rest = [] ∧ p = .done o := by
    intro o ho
    rw [ho] at hrest
    exact hrest.of_done
  constructor
  case fetches =>
    intro url mode reply hasked
    rcases hmem hasked with ⟨producer, hproduce⟩ | hmem
    · cases hproduce
    · obtain ⟨url', rfl, hweb⟩ := webAddress_of_isFinal hfinal hrest (List.ne_nil_of_mem hmem)
      have hfetched : url ∈ fetched rest := List.mem_filterMap.2 ⟨_, hmem, rfl⟩
      rcases resolveSource_fetched hfinal hrest with hnone | ⟨_, hurl, -, -, hsub⟩
      · rw [hnone] at hfetched
        cases hfetched
      · cases hurl
        obtain rfl := List.mem_singleton.1 (hsub.subset hfetched)
        exact ⟨hweb, hweb.ofText.symm⟩
  case others =>
    intro hother
    have hurl : ∀ url, e = .url url → ¬ IsWebAddress url :=
      fun url he hweb => hother ⟨url, hweb, he.trans hweb.ofText.symm⟩
    obtain ⟨o, ho⟩ := exists_done_of_isFinal hfinal hurl s.producerLimit id 0
    obtain ⟨rfl, rfl⟩ := hdone ho
    refine ⟨fun r answer hasked st => ?_, o, rfl⟩
    rcases hmem hasked with ⟨producer, rfl⟩ | hmem
    · rfl
    · cases hmem
  case localFile =>
    intro text he hweb hdata
    rw [Source.ofText, hdata] at he
    subst he
    obtain ⟨-, rfl⟩ := hdone (resolveUrl_of_not_isRemote (isRemote_iff.not.2 hweb) id)
    exact ⟨_, rfl, rfl⟩
  case bytes =>
    intro bytes he
    subst he
    obtain ⟨-, rfl⟩ := hdone rfl
    exact ⟨_, rfl, resolveBytes_ok_iff⟩
  case format =>
    intro image hok hkind
    cases p with
    | ask r next => cases hok
    | done o =>
      cases hok
      rcases hkind with ⟨url, rfl⟩ | ⟨bytes, rfl⟩
      · exact format_of_url h hstore hplans hplan hlog hleft hchain hrest
      · obtain ⟨-, hok⟩ := hdone rfl
        exact resolveBytes_format (Plan.done.inj hok).symm

end Tasks

/-- **Every image source is handled by its own rule**, in any history from empty caches. -/
theorem source_rules {tasks : List Item} {registry : Font.Registry}
    (h : History ⟨tasks.map (resolution s), ⟨.empty, .empty, registry⟩⟩ es q)
    (hi : tasks[i]? = some (.inr ⟨id, source⟩)) :
    ∃ left, q.plans[i]? = some left ∧ FollowsRules s id source es i left := by
  have hplan : (tasks.map (resolution s))[i]? = some (resolution s (.inr ⟨id, source⟩)) := by
    simp [hi]
  obtain ⟨_, hleft, htask⟩ := h.answered hplan
  obtain ⟨p, hanswered, rfl⟩ := htask.of_map
  refine ⟨_, hleft, ?asks, ?ids, ?rule⟩
  case asks =>
    intro r answer hasked hother
    obtain ⟨chain, rest, url, hlog, hchain, hlength, hweb⟩ :=
      exists_webAddress hanswered (mem_exchanges.2 hasked) hother
    exact ⟨chain, rest, url, hlog, hweb.ofText ▸ hchain, hlength, hweb⟩
  case ids =>
    intro image hdone
    rw [hdone] at hleft
    have hends : ImageEnds id (lastUse (exchanges i es)) (.ok image) := item_ends h hplan hleft
    exact hends.id_eq
  case rule =>
    intro chain rest e hlog hchain hfinal hlength
    have hend := hchain.answered s.producerLimit id hlength
    rw [resolveSource_of_isFinal hfinal _ _ _ 0] at hend
    exact ruled h (Store.sound_of_empty registry) (resolutions_ask s tasks) hplan hlog hleft
      hchain.onlyProducers hfinal (hend.of_append (hlog ▸ hanswered))

/-! ## The race, and a picture by its path -/

/-- A picture by its path. -/
def pathTask : List Item := [.inr ⟨"cat", .url "cat.gif"⟩]

/-- Both pictures of the race have the bytes that were kept first, each under its own id; a path is
refused at once. -/
theorem race_rules :
    FollowsRules .default "left" (.url catUrl) raceEvents 3 (.done (.inr (.ok (cat "left" "89a")))) ∧
    FollowsRules .default "right" (.deferred ⟨"cat", 0⟩) raceEvents 4
      (.done (.inr (.ok (cat "right" "89a")))) ∧
    Ruled (.url catUrl) raceEvents 4 (.done (.inr (.ok (cat "right" "89a")))) ∧
    FollowsRules .default "cat" (.url "cat.gif") [] 0 (.done (.inr (.error (.localFile "cat.gif")))) ∧
    IsWebAddress catUrl ∧ IsWebAddress "\n HTTPS://pictures.example" ∧ ¬ IsWebAddress "cat.gif" := by
  obtain ⟨st, hrace⟩ := race_history
  obtain ⟨left, hleft, hleftRules⟩ := source_rules (i := 3) hrace rfl
  obtain ⟨right, hright, hrightRules⟩ := source_rules (i := 4) hrace rfl
  cases hleft
  cases hright
  have hpath : History ⟨pathTask.map (resolution .default), .empty⟩ [] _ := .nil _
  obtain ⟨path, hdone, hpathRules⟩ := source_rules (i := 0) hpath rfl
  cases hdone
  have hchain : HandsOut (.deferred ⟨"cat", 0⟩) [⟨.produce ⟨"cat", 0⟩, .ok (.url catUrl)⟩]
      (.url catUrl) := .cons (.nil _)
  have hruled := hrightRules.rule _ _ _ rfl hchain nofun (by decide)
  exact ⟨hleftRules, hrightRules, hruled, hpathRules, isRemote_iff.1 (by decide),
    isRemote_iff.1 (by decide), isRemote_iff.not.1 (by decide)⟩

end Galley.Press
