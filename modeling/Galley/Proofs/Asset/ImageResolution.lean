import Galley.Asset.Images
import Galley.Proofs.Asset.Growth

/-!
# Resolving an image among others

**Theorem (`resolveSource_ensures`).** While stores only grow, and under an address by nothing else
than the image there, in whoever's name, a source ends with its value over the first store, and an
address that it leads to has an image in the end.

Two sources may lead to one address, and both may fetch it before either keeps it. The image that
is kept has the name of the first one; everything else of it is in the reply (`imageOf_id`), and
each source puts its own name on what it gets.
-/

namespace Galley.Asset

open Font (Face)
open Image (Source)

variable {A : Answers} {J : Face → LoadedFont → Prop} {K : String → LoadedImage → Prop}

/-! ## The image at an address -/

/-- The image that a reply holds, in the name of an id. -/
def imageOf (id url : String) : Reply → Except Fault LoadedImage
  | .error message => .error (.imageUnreachable url message)
  | .ok response =>
    if response.isSuccess then
      match Image.Format.detect? response.body with
      | none => .error (.unknownFormat url)
      | some format => .ok (.of id format response.body)
    else .error (.imageStatus url response.status)

/-- In another name, the image is the same otherwise. -/
theorem imageOf_id {id url : String} {reply : Reply} {image : LoadedImage}
    (h : imageOf id url reply = .ok image) (id' : String) :
    imageOf id' url reply = .ok { image with id := id' } := by
  cases reply with
  | error message => cases h
  | ok response =>
    rw [imageOf] at h ⊢
    split at h
    · rename_i hsuccess
      rw [if_pos hsuccess]
      split at h
      · cases h
      · cases h
        rfl
    · cases h

/-- The image that an address has in the world. -/
def imageAt (A : Answers) (id url : String) : Except Fault LoadedImage :=
  imageOf id url (A.fetch url .preferCache)

/-- An image is kept under its address. -/
def keepImage (url : String) : Except Fault LoadedImage → Task LoadedImage
  | .error fault => throw fault
  | .ok image => Task.ask (.keepImage url image)

theorem fetchImage_outcome (id url : String) :
    (fetchImage id url).outcome =
      .ask (.fetch url .preferCache) fun reply => (keepImage url (imageOf id url reply)).outcome := by
  show Plan.ask _ _ = _
  congr 1
  funext reply
  cases reply with
  | error message => rfl
  | ok response =>
    show Task.outcome (if response.isSuccess = true then
      match Image.Format.detect? response.body with
      | none => throw (Fault.unknownFormat url)
      | some format => Task.ask (.keepImage url (.of id format response.body))
      else throw (Fault.imageStatus url response.status)) = _
    rw [imageOf]
    by_cases hsuccess : response.isSuccess = true
    · rw [if_pos hsuccess, if_pos hsuccess]
      cases Image.Format.detect? response.body <;> rfl
    · rw [if_neg hsuccess, if_neg hsuccess]
      rfl

/-- What is found is taken under the id that was asked for. -/
def renamed (id : String) : Except Fault LoadedImage → Plan (Except Fault LoadedImage)
  | .error fault => .done (.error fault)
  | .ok image => .done (.ok { image with id := id })

/-- What follows on the answer of the cache. -/
def afterImageCache (id url : String) : Option LoadedImage → Plan (Except Fault LoadedImage)
  | some image => renamed id (.ok image)
  | none => (fetchImage id url).outcome.bind (renamed id)

/-- The questions of an address: the cache first. -/
theorem resolveUrl_outcome {url : String} (h : isRemote url = true) (id : String) :
    (resolveUrl id url).outcome = .ask (.cachedImage url) (afterImageCache id url) := by
  have hrenamed : ∀ o, ExceptT.bindCont
      (fun image : LoadedImage => (pure { image with id := id } : Task LoadedImage)) o =
        renamed id o := by
    intro o
    cases o <;> rfl
  unfold resolveUrl
  rw [if_pos h]
  show Plan.ask _ _ = _
  congr 1
  funext cached
  cases cached with
  | some image => rfl
  | none => exact congrArg ((fetchImage id url).outcome.bind) (funext hrenamed)

theorem resolveUrl_of_not_isRemote {url : String} (h : ¬ isRemote url = true) (id : String) :
    (resolveUrl id url).outcome = .done (.error (.localFile url)) := by
  unfold resolveUrl
  rw [if_neg h]
  rfl

/-! ## An address among others -/

section Url

variable {st : Store} {id url : String}

theorem imageAt_id {image : LoadedImage} (h : imageAt A id url = .ok image) (id' : String) :
    imageAt A id' url = .ok { image with id := id' } :=
  imageOf_id h id'

/-- The value of an address over a store. -/
def urlValue (A : Answers) (st : Store) (id url : String) : Except Fault LoadedImage :=
  (resolveUrl id url).outcome.against A st

theorem urlValue_of_cached (hremote : isRemote url = true) {image : LoadedImage}
    (h : st.images.get? url = some image) : urlValue A st id url = .ok { image with id := id } := by
  rw [urlValue, resolveUrl_outcome hremote]
  show (afterImageCache id url (st.images.get? url)).against A st = _
  rw [h]
  rfl

theorem urlValue_of_not_cached (hremote : isRemote url = true) (h : st.images.get? url = none) :
    urlValue A st id url = imageAt A id url := by
  rw [urlValue, resolveUrl_outcome hremote]
  show (afterImageCache id url (st.images.get? url)).against A st = _
  rw [h]
  show ((fetchImage id url).outcome.bind (renamed id)).against A st = _
  rw [fetchImage_outcome]
  show ((keepImage url (imageAt A id url)).outcome.bind (renamed id)).against A st = _
  cases himage : imageAt A id url with
  | error fault => rfl
  | ok image =>
    show Except.ok { (st.images.get? url).getD image with id := id } = _
    rw [h]
    exact (imageAt_id himage id).symm.trans himage

/-- **An address among others.** -/
theorem resolveUrl_ensures {t : Store} (hst : Store.Grows J K st t)
    (hK : ∀ image, K url image → ∃ id', imageAt A id' url = .ok image)
    (hown : isRemote url = true → ∀ image, imageAt A id url = .ok image → K url image) :
    (resolveUrl id url).outcome.Ensures A (growth J K)
      (fun o u => o = urlValue A st id url ∧ (isRemote url = true →
        ∀ image, imageAt A id url = .ok image → ∃ kept, u.images.get? url = some kept)) t := by
  by_cases hremote : isRemote url = true
  · rw [resolveUrl_outcome hremote]
    -- An image under the address is the one of the first store, or the one of the world.
    have hfound : ∀ {u : Store} {image : LoadedImage}, Store.Grows J K st u →
        u.images.get? url = some image → urlValue A st id url = .ok { image with id := id } := by
      intro u image hu hcached
      cases hstart : st.images.get? url with
      | some first =>
        have hsame := hu.images.kept hstart
        rw [hcached] at hsame
        cases hsame
        exact urlValue_of_cached hremote hstart
      | none =>
        obtain ⟨id', hid⟩ := hK image (hu.images.justified hstart hcached)
        rw [urlValue_of_not_cached hremote hstart]
        exact imageAt_id hid id
    intro u hu
    have hsu : Store.Grows J K st u := (growth J K).trans hst hu
    refine ⟨(growth J K).refl u, ?_⟩
    show (afterImageCache id url (u.images.get? url)).Ensures A (growth J K) _ u
    cases hcached : u.images.get? url with
    | some image => exact ⟨(hfound hsu hcached).symm, fun _ _ _ => ⟨image, hcached⟩⟩
    | none =>
      have hstart : st.images.get? url = none := hsu.images.get?_eq_none hcached
      show ((fetchImage id url).outcome.bind (renamed id)).Ensures A (growth J K) _ u
      rw [fetchImage_outcome]
      intro v hv
      refine ⟨(growth J K).refl v, ?_⟩
      show ((keepImage url (imageAt A id url)).outcome.bind (renamed id)).Ensures A (growth J K) _ v
      cases himage : imageAt A id url with
      | error fault =>
        have hvalue := (urlValue_of_not_cached hremote hstart).trans himage
        refine ⟨hvalue.symm, fun _ image h => ?_⟩
        cases h
      | ok image =>
        intro x hx
        have hsx : Store.Grows J K st x :=
          (growth J K).trans hsu ((growth J K).trans hv hx)
        refine ⟨⟨.refl _, .put _ (hown hremote image himage), rfl⟩, ?_, fun _ _ _ => ?_⟩
        · show Except.ok { (x.images.get? url).getD image with id := id } = _
          cases hx' : x.images.get? url with
          | some other => exact (hfound hsx hx').symm
          | none =>
            rw [urlValue_of_not_cached hremote hstart]
            exact (imageAt_id himage id).symm
        · show ∃ kept, (x.images.put url image).get? url = some kept
          rw [Cache.get?_put]
          cases x.images.get? url with
          | some other => exact ⟨other, rfl⟩
          | none => exact ⟨image, by simp⟩
  · have hlocal := resolveUrl_of_not_isRemote hremote id
    rw [hlocal]
    refine ⟨?_, fun h => absurd h hremote⟩
    rw [urlValue, hlocal]
    rfl

end Url

/-! ## A source among others -/

section Source

variable {st t : Store} {limit n : Nat} {id : String} {source : Source}

/-- A source leads to an address: at once, or by what producers hand out, so many of them at
most. -/
inductive Leads (A : Answers) : Nat → Source → String → Prop
  | url (n : Nat) (url : String) : Leads A n (.url url) url
  | deferred {n : Nat} {producer : Image.Producer} {source : Source} {url : String}
      (hproduce : A.produce producer = .ok source) (hrest : Leads A n source url) :
      Leads A (n + 1) (.deferred producer) url

/-- What follows on the answer of a producer. -/
def afterProducer (limit : Nat) (id : String) (n : Nat) :
    Except Report Source → Plan (Except Fault LoadedImage)
  | .error report => .done (.error (.reported report))
  | .ok source => (resolveSource limit id n source).outcome

theorem resolveSource_deferred (limit : Nat) (id : String) (n : Nat) (producer : Image.Producer) :
    (resolveSource limit id (n + 1) (.deferred producer)).outcome =
      .ask (.produce producer) (afterProducer limit id n) := by
  show Plan.ask _ _ = _
  congr 1
  funext answer
  cases answer <;> rfl

/-- The value of a source over a store. -/
def sourceValue (A : Answers) (st : Store) (limit : Nat) (id : String) (n : Nat) (source : Source) :
    Except Fault LoadedImage :=
  (resolveSource limit id n source).outcome.against A st

/-- What a source is to end with. -/
def SourceEnds (A : Answers) (st : Store) (limit : Nat) (id : String) (n : Nat) (source : Source)
    (o : Except Fault LoadedImage) (t : Store) : Prop :=
  o = sourceValue A st limit id n source ∧
    ∀ url, Leads A n source url → isRemote url = true →
      ∀ image, imageAt A id url = .ok image → ∃ kept, t.images.get? url = some kept

theorem resolveSource_url_ensures {url : String} (hst : Store.Grows J K st t)
    (hK : ∀ image, K url image → ∃ id', imageAt A id' url = .ok image)
    (hown : isRemote url = true → ∀ image, imageAt A id url = .ok image → K url image) :
    (resolveSource limit id n (.url url)).outcome.Ensures A (growth J K)
      (SourceEnds A st limit id n (.url url)) t := by
  have hurl : resolveSource limit id n (.url url) = resolveUrl id url := by
    cases n <;> rfl
  rw [hurl]
  refine (resolveUrl_ensures hst hK hown).mono fun o u ho => ⟨?_, fun url' hleads => ?_⟩
  · rw [sourceValue, hurl]
    exact ho.1
  · cases hleads
    exact ho.2

/-- **A source among others**, by induction on the producers that may be asked. -/
theorem resolveSource_ensures (hst : Store.Grows J K st t)
    (hK : ∀ url image, K url image → ∃ id', imageAt A id' url = .ok image)
    (hown : ∀ url, Leads A n source url → isRemote url = true →
      ∀ image, imageAt A id url = .ok image → K url image) :
    (resolveSource limit id n source).outcome.Ensures A (growth J K)
      (SourceEnds A st limit id n source) t := by
  induction n generalizing source t with
  | zero =>
    cases source with
    | url url => exact resolveSource_url_ensures hst (hK url) (hown url (.url 0 url))
    | dataUri | bytes | deferred => exact ⟨rfl, fun url hleads => nomatch hleads⟩
  | succ n ih =>
    cases source with
    | url url => exact resolveSource_url_ensures hst (hK url) (hown url (.url _ url))
    | dataUri | bytes => exact ⟨rfl, fun url hleads => nomatch hleads⟩
    | deferred producer =>
      have hvalue : sourceValue A st limit id (n + 1) (.deferred producer) =
          (afterProducer limit id n (A.produce producer)).against A st := by
        rw [sourceValue, resolveSource_deferred]
        rfl
      rw [resolveSource_deferred]
      intro u hu
      refine ⟨(growth J K).refl u, ?_⟩
      show (afterProducer limit id n (A.produce producer)).Ensures A (growth J K) _ u
      cases hproduce : A.produce producer with
      | error report =>
        rw [hproduce] at hvalue
        refine ⟨hvalue.symm, fun url hleads => ?_⟩
        cases hleads with
        | deferred hok _ =>
          rw [hproduce] at hok
          cases hok
      | ok next =>
        rw [hproduce] at hvalue
        have hnext := ih ((growth J K).trans hst hu)
          fun url hleads => hown url (.deferred hproduce hleads)
        refine hnext.mono fun o v ho => ⟨ho.1.trans hvalue.symm, fun url hleads => ?_⟩
        cases hleads with
        | deferred hok hrest =>
          rw [hproduce] at hok
          cases hok
          exact ho.2 url hrest

end Source

end Galley.Asset
