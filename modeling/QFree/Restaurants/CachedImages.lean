/-
  Restaurants/CachedImages.lean --- `class CachedImageView` and `imageCache`.

  A view is told a URL, shows a placeholder and starts a download, unless the cache
  has an image for the URL.  Cells are reused, so a view is told another URL while
  older downloads are still in flight.  The block a download queues shows its image
  only in a view whose `imageUrl` is still the URL of the download, and puts the
  image in the cache in any case; the cache may forget an image at any moment.

  The state keeps, beside the fields of the source, the URL last given to each view
  and the data each download was answered with.  `images_match_urls` says that no
  view shows an image of another URL than the one last given to it, and that every
  image in the cache was downloaded for its key.
-/
import QFree.Foundation.Load
import QFree.Foundation.Run
import QFree.Model.Entities

set_option autoImplicit false

namespace QFree

open QFree.Foundation

/-- The fields of a view; `isAnimating` is that of its activity indicator. -/
structure CachedImageView (Image : Type) where
  imageUrl : Option String
  image : Option Image
  isAnimating : Bool
  deriving DecidableEq

variable {Data Image : Type}

/-- `placeholderImage`, the same for every view. -/
def ImageLibrary.placeholderImage (images : ImageLibrary Data Image) : Option Image :=
  images.named "restaurant-placeholder"

namespace CachedImageView

/-- `init(frame:)`. -/
def initial : CachedImageView Image := ⟨none, none, true⟩

/-- `loadImage(from:)`: the view after it, and the URL of the download it starts. -/
def loadImage (images : ImageLibrary Data Image) (view : CachedImageView Image)
    (imageCache : String → Option Image) :
    Option String → CachedImageView Image × Option String
  | none => (view, none)
  | some url =>
      let view := { view with image := images.placeholderImage, imageUrl := some url }
      match imageCache url with
      | some cachedImage => ({ view with image := some cachedImage }, none)
      | none => if images.isURL url then (view, some url) else (view, none)

/-- What the block of a download does to its view. -/
def imageLoaded (view : CachedImageView Image) (url : String) (imageFromData : Option Image) :
    CachedImageView Image :=
  if view.imageUrl = some url then { view with image := imageFromData, isAnimating := false }
  else view

end CachedImageView

/-! ## Views, cache and downloads -/

/-- A view, and the URL last given to it. -/
structure GivenView (Image : Type) where
  view : CachedImageView Image
  given : Option String
  deriving DecidableEq

/-- The views, the cache they share, the data tasks with the view and the URL each is
for, and the data the tasks were answered with. -/
structure ImageViews (Data Image : Type) where
  views : List (GivenView Image)
  imageCache : String → Option Image
  tasks : List (Load (Nat × String) (Option Data))
  downloads : List (String × Data)

/-- What happens to the views and the cache. -/
inductive ImageEvent (Data : Type) where
  | created
  | loadImage (n : Nat) (urlStr : Option String)
  | configured (n : Nat) (restaurant : Restaurant)
  | completed (task : Nat) (data : Option Data)
  | failed (task : Nat)
  | performed (task : Nat)
  | evicted (url : String)

namespace ImageViews

/-- No views yet, and nothing in the cache. -/
def initial : ImageViews Data Image := ⟨[], fun _ => none, [], []⟩

/-- `loadImage(from:)` on the view in place `n`. -/
def load (images : ImageLibrary Data Image) (state : ImageViews Data Image) (n : Nat)
    (slot : GivenView Image) (urlStr : Option String) : ImageViews Data Image :=
  let result := slot.view.loadImage images state.imageCache urlStr
  { state with
    views := state.views.set n ⟨result.1, urlStr.or slot.given⟩
    tasks := match result.2 with
      | some url => Load.start state.tasks (n, url)
      | none => state.tasks }

/-- The block a download queues: `data!`, the image in the view, `imageFromData!` and
the image in the cache. -/
def imageLoaded (images : ImageLibrary Data Image) (state : ImageViews Data Image) (n : Nat)
    (url : String) (data : Option Data) : Option (ImageViews Data Image) := do
  let data ← data
  let imageFromData := images.ofData data
  let slot ← state.views[n]?
  let slot := { slot with view := slot.view.imageLoaded url imageFromData }
  let image ← imageFromData
  return { state with
    views := state.views.set n slot
    imageCache := Function.update state.imageCache url (some image) }

/-- One event.  `configured` is `RestaurantCell.configure(with:)`, `performed` the
block of a completed task on the main queue. -/
def handle (images : ImageLibrary Data Image) (state : ImageViews Data Image) :
    ImageEvent Data → Option (ImageViews Data Image)
  | .created => some { state with views := state.views ++ [⟨.initial, none⟩] }
  | .loadImage n urlStr => do
      let slot ← state.views[n]?
      return state.load images n slot urlStr
  | .configured n restaurant => do
      let slot ← state.views[n]?
      let slot := { slot with view := { slot.view with imageUrl := some restaurant.image } }
      return state.load images n slot slot.view.imageUrl
  | .completed task data => do
      let (subject, tasks) ← Load.complete state.tasks task data
      return { state with
        tasks := tasks
        downloads := state.downloads ++ data.toList.map fun data => (subject.2, data) }
  | .failed task => do
      let tasks ← Load.fail state.tasks task
      return { state with tasks := tasks }
  | .performed task => do
      let ((n, url), data, tasks) ← Load.perform state.tasks task
      imageLoaded images { state with tasks := tasks } n url data
  | .evicted url => some { state with imageCache := Function.update state.imageCache url none }

/-! ## Whose image is shown -/

/-- The image was downloaded for the URL. -/
def DownloadedFor (images : ImageLibrary Data Image) (downloads : List (String × Data))
    (url : String) (image : Image) : Prop :=
  ∃ data, (url, data) ∈ downloads ∧ images.ofData data = some image

/-- Nothing, the placeholder, or an image downloaded for the URL that was given. -/
def MayShow (images : ImageLibrary Data Image) (downloads : List (String × Data))
    (given : Option String) (shown : Option Image) : Prop :=
  shown = none ∨ shown = images.placeholderImage ∨
    ∃ url ∈ given, ∃ image, shown = some image ∧ DownloadedFor images downloads url image

/-- A view knows the URL last given to it, and may show what it shows. -/
structure SoundView (images : ImageLibrary Data Image) (downloads : List (String × Data))
    (slot : GivenView Image) : Prop where
  imageUrl_eq : slot.view.imageUrl = slot.given
  mayShow : MayShow images downloads slot.given slot.view.image

/-- A task is for one of the views, and its data was downloaded for its URL. -/
def SoundTask (downloads : List (String × Data)) (views : Nat) :
    Load (Nat × String) (Option Data) → Prop
  | .running subject => subject.1 < views
  | .loaded subject data => subject.1 < views ∧ ∀ d ∈ data, (subject.2, d) ∈ downloads
  | .finished => True

/-- The views, the cache and the tasks agree with the downloads. -/
structure Sound (images : ImageLibrary Data Image) (state : ImageViews Data Image) : Prop where
  view : ∀ slot ∈ state.views, SoundView images state.downloads slot
  cached : ∀ url image, state.imageCache url = some image →
    DownloadedFor images state.downloads url image
  task : ∀ load ∈ state.tasks, SoundTask state.downloads state.views.length load

variable {images : ImageLibrary Data Image} {downloads more : List (String × Data)}
  {state next : ImageViews Data Image}

theorem DownloadedFor.append {url : String} {image : Image}
    (h : DownloadedFor images downloads url image) :
    DownloadedFor images (downloads ++ more) url image := by
  obtain ⟨data, hmem, himage⟩ := h
  exact ⟨data, List.mem_append_left more hmem, himage⟩

theorem SoundView.append {slot : GivenView Image} (h : SoundView images downloads slot) :
    SoundView images (downloads ++ more) slot := by
  refine ⟨h.imageUrl_eq, ?_⟩
  rcases h.mayShow with hnone | hplaceholder | ⟨url, hurl, image, himage, hdownloaded⟩
  · exact .inl hnone
  · exact .inr (.inl hplaceholder)
  · exact .inr (.inr ⟨url, hurl, image, himage, hdownloaded.append⟩)

/-- More downloads and more views leave a task sound. -/
theorem SoundTask.mono {views others : Nat} {load : Load (Nat × String) (Option Data)}
    (h : SoundTask downloads views load) (hdownloads : downloads ⊆ more)
    (hviews : views ≤ others) : SoundTask more others load := by
  cases load with
  | running subject => exact Nat.lt_of_lt_of_le h hviews
  | loaded subject data =>
      exact ⟨Nat.lt_of_lt_of_le h.1 hviews, fun d hd => hdownloads (h.2 d hd)⟩
  | finished => trivial

theorem sound_initial : (initial : ImageViews Data Image).Sound images := ⟨nofun, nofun, nofun⟩

/-- A new view for one of the old keeps the views sound. -/
theorem forall_mem_set {views : List (GivenView Image)}
    (h : ∀ slot ∈ views, SoundView images downloads slot) {slot : GivenView Image}
    (hslot : SoundView images downloads slot) (n : Nat) :
    ∀ other ∈ views.set n slot, SoundView images downloads other := by
  intro other hother
  rcases List.mem_or_eq_of_mem_set hother with hold | rfl
  · exact h other hold
  · exact hslot

/-- `loadImage` shows the placeholder or an image from the cache, under the new URL. -/
theorem soundView_loadImage {imageCache : String → Option Image}
    (hcached : ∀ url image, imageCache url = some image →
      DownloadedFor images downloads url image)
    (view : CachedImageView Image) (url : String) :
    SoundView images downloads ⟨(view.loadImage images imageCache (some url)).1, some url⟩ := by
  unfold CachedImageView.loadImage
  dsimp only
  split
  · rename_i image hhit
    exact ⟨rfl, .inr (.inr ⟨url, rfl, image, rfl, hcached url image hhit⟩)⟩
  · split
    · exact ⟨rfl, .inr (.inl rfl)⟩
    · exact ⟨rfl, .inr (.inl rfl)⟩

/-- `loadImage` keeps the state sound, if the view it is called on is sound or the
call gives it a URL. -/
theorem sound_load (h : state.Sound images) {n : Nat} (hn : n < state.views.length)
    {slot : GivenView Image} {urlStr : Option String}
    (hslot : urlStr = none → SoundView images state.downloads slot) :
    (state.load images n slot urlStr).Sound images := by
  refine ⟨forall_mem_set h.view ?_ n, h.cached, fun load hload => ?_⟩
  · cases urlStr with
    | none => exact hslot rfl
    | some url => exact soundView_loadImage h.cached slot.view url
  · unfold ImageViews.load at hload ⊢
    dsimp only at hload ⊢
    rw [List.length_set]
    split at hload
    · rcases Load.mem_start hload with hold | rfl
      · exact h.task load hold
      · exact hn
    · exact h.task load hload

/-- The block of a download shows its image only under its own URL. -/
theorem soundView_imageLoaded {slot : GivenView Image} (h : SoundView images downloads slot)
    {url : String} {image : Image} (himage : DownloadedFor images downloads url image) :
    SoundView images downloads { slot with view := slot.view.imageLoaded url (some image) } := by
  unfold CachedImageView.imageLoaded
  split
  · rename_i hurl
    have hgiven : url ∈ slot.given := h.imageUrl_eq.symm.trans hurl
    exact ⟨h.imageUrl_eq, .inr (.inr ⟨url, hgiven, image, rfl, himage⟩)⟩
  · exact h

/-- The block of a download keeps the state sound. -/
theorem sound_imageLoaded (h : state.Sound images) {n : Nat} {url : String}
    {data : Option Data} (hdata : ∀ d ∈ data, (url, d) ∈ state.downloads)
    (hnext : state.imageLoaded images n url data = some next) : next.Sound images := by
  simp only [imageLoaded, Option.bind_eq_bind, Option.pure_def, Option.bind_eq_some_iff,
    Option.some.injEq] at hnext
  obtain ⟨d, hd, slot, hslot, image, himage, rfl⟩ := hnext
  have hdownloaded : DownloadedFor images state.downloads url image := ⟨d, hdata d hd, himage⟩
  refine ⟨?_, fun key other hkey => ?_, ?_⟩
  · rw [himage]
    exact forall_mem_set h.view
      (soundView_imageLoaded (h.view slot (List.mem_of_getElem? hslot)) hdownloaded) n
  · by_cases heq : key = url
    · subst heq
      simp only [Function.update_self, Option.some.injEq] at hkey
      exact hkey ▸ hdownloaded
    · simp only [Function.update_of_ne heq] at hkey
      exact h.cached key other hkey
  · dsimp only
    rw [List.length_set]
    exact h.task

/-- Every event keeps the state sound. -/
theorem sound_handle {event : ImageEvent Data} (h : state.Sound images)
    (hnext : state.handle images event = some next) : next.Sound images := by
  cases event with
  | created =>
      obtain rfl := Option.some.inj hnext
      refine ⟨fun slot hslot => ?_, h.cached, fun load hload => ?_⟩
      · rcases List.mem_append.mp hslot with hold | hnew
        · exact h.view slot hold
        · obtain rfl := List.mem_singleton.mp hnew
          exact ⟨rfl, .inl rfl⟩
      · refine (h.task load hload).mono (List.Subset.refl _) ?_
        rw [List.length_append]
        exact Nat.le_add_right _ 1
  | loadImage n urlStr =>
      obtain ⟨slot, hslot, hloaded⟩ := Option.bind_eq_some_iff.mp hnext
      obtain rfl := Option.some.inj hloaded
      obtain ⟨hn, -⟩ := List.getElem?_eq_some_iff.mp hslot
      exact sound_load h hn fun _ => h.view slot (List.mem_of_getElem? hslot)
  | configured n restaurant =>
      obtain ⟨slot, hslot, hloaded⟩ := Option.bind_eq_some_iff.mp hnext
      obtain rfl := Option.some.inj hloaded
      obtain ⟨hn, -⟩ := List.getElem?_eq_some_iff.mp hslot
      -- the URL of the restaurant is given, so the cell's own `imageUrl` is set anew
      exact sound_load h hn nofun
  | completed task data =>
      obtain ⟨⟨subject, tasks⟩, hcomplete, hanswered⟩ := Option.bind_eq_some_iff.mp hnext
      obtain rfl := Option.some.inj hanswered
      obtain ⟨hrunning, htasks⟩ := Load.mem_complete hcomplete
      refine ⟨fun slot hslot => (h.view slot hslot).append,
        fun url image hhit => (h.cached url image hhit).append, fun load hload => ?_⟩
      rcases htasks load hload with hold | rfl
      · exact (h.task load hold).mono (List.subset_append_left _ _) (Nat.le_refl _)
      · refine ⟨h.task _ hrunning, fun d hd => List.mem_append_right _ ?_⟩
        obtain rfl : data = some d := hd
        exact List.mem_cons_self
  | failed task =>
      obtain ⟨tasks, hfail, hended⟩ := Option.bind_eq_some_iff.mp hnext
      obtain rfl := Option.some.inj hended
      refine ⟨h.view, h.cached, fun load hload => ?_⟩
      rcases Load.mem_fail hfail load hload with hold | rfl
      · exact h.task load hold
      · trivial
  | performed task =>
      obtain ⟨⟨⟨n, url⟩, data, tasks⟩, hperform, hblock⟩ := Option.bind_eq_some_iff.mp hnext
      obtain ⟨hloaded, htasks⟩ := Load.mem_perform hperform
      have hsound : Sound images { state with tasks := tasks } := by
        refine ⟨h.view, h.cached, fun load hload => ?_⟩
        rcases htasks load hload with hold | rfl
        · exact h.task load hold
        · trivial
      exact sound_imageLoaded hsound (h.task _ hloaded).2 hblock
  | evicted url =>
      obtain rfl := Option.some.inj hnext
      refine ⟨h.view, fun key image hhit => ?_, h.task⟩
      by_cases heq : key = url
      · subst heq
        simp only [Function.update_self] at hhit
        cases hhit
      · simp only [Function.update_of_ne heq] at hhit
        exact h.cached key image hhit

theorem sound_of_run {events : List (ImageEvent Data)} {final : ImageViews Data Image}
    (hrun : run (handle images) initial events = some final) : final.Sound images :=
  run_invariant (Sound images) (fun _ _ _ h hnext => sound_handle h hnext) sound_initial hrun

/-- In every state that is reached, the block of a download with a valid image can be
performed: its view is there, and nothing traps. -/
theorem exists_performed {events : List (ImageEvent Data)} {final : ImageViews Data Image}
    (hrun : run (handle images) initial events = some final) {task n : Nat} {url : String}
    {data : Data} (hloaded : final.tasks[task]? = some (.loaded (n, url) (some data)))
    (hvalid : images.ofData data ≠ none) :
    ∃ next, final.handle images (.performed task) = some next := by
  have htask := (sound_of_run hrun).task _ (List.mem_of_getElem? hloaded)
  have hn : n < final.views.length := htask.1
  have hslot : final.views[n]? = some final.views[n] := List.getElem?_eq_getElem hn
  obtain ⟨image, himage⟩ := Option.ne_none_iff_exists'.mp hvalid
  have hperform := Load.perform_eq_some.mpr ⟨hloaded, rfl⟩
  simp only [handle, hperform, imageLoaded, hslot, himage, Option.bind_eq_bind, Option.bind_some,
    Option.pure_def, Option.some.injEq, exists_eq']

/-- A cell is reused for a second restaurant before the picture of the first arrives,
and another view finds the first picture in the cache. -/
def reusedCell : List (ImageEvent String) :=
  [.created, .configured 0 ⟨"Groot", "g.png", "55.75", "37.64", [.coffee]⟩,
    .configured 0 ⟨"Tokyo", "t.png", "55.76", "37.65", [.sushi]⟩,
    .completed 1 (some "sushi"), .performed 1, .completed 0 (some "coffee"), .performed 0,
    .created, .loadImage 1 (some "g.png"), .loadImage 1 none, .evicted "g.png"]

end ImageViews

end QFree
