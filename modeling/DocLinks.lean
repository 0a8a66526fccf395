import DocLinks.Main
import DocLinks.Proofs.ExpansionTwice
import DocLinks.Proofs.GeneratedPages
import DocLinks.Proofs.RegistryRuns
import DocLinks.Proofs.ParentPages
import DocLinks.Proofs.ShortNames
import DocLinks.Proofs.TagGrammar
import DocLinks.Proofs.TagPlaces
import DocLinks.Proofs.MarkersAsTags
import DocLinks.Proofs.LinkedAddresses
import DocLinks.Proofs.FileBooks
import DocLinks.Proofs.PageOwners
import DocLinks.Proofs.PagesOfTheirOwn
import DocLinks.Proofs.StoredLinks
import DocLinks.Proofs.SeeReferences
import DocLinks.Proofs.DocletRoundTrip
import DocLinks.Proofs.RegistryHistory
import DocLinks.Proofs.PublishedDoclets
import DocLinks.Proofs.SlicesInRange
import DocLinks.Proofs.ConfiguredLinks
import DocLinks.Proofs.ContainerPages
import DocLinks.Proofs.FinalSigma
import DocLinks.Proofs.AllocatorRuns
import DocLinks.Proofs.ParentChains
import DocLinks.Proofs.SidebarRows
import DocLinks.Proofs.LinkedSymbols
import DocLinks.Proofs.StableLinks
import DocLinks.Proofs.ViewHistories
import DocLinks.Proofs.LinkTargets
import DocLinks.Proofs.SidebarListing
import DocLinks.Proofs.AnchorRuns
import DocLinks.Proofs.CleanAddresses
import DocLinks.Proofs.TicketWords
import DocLinks.Proofs.FragmentIds
import DocLinks.Proofs.SharedDirectories
import DocLinks.Proofs.Lineages
import DocLinks.Proofs.MarkersReadBack
import DocLinks.Proofs.ResolvedTexts
import DocLinks.Proofs.CaptionGrammar
import DocLinks.Proofs.ItemMarkup
import DocLinks.Proofs.TutorialPages
import DocLinks.Proofs.SourceListing
import DocLinks.Proofs.StrayDollars
import DocLinks.Proofs.DistinctFields
import DocLinks.Proofs.FileSettings
import DocLinks.Proofs.SettingsLayers
import DocLinks.Proofs.ModuleExports
import DocLinks.Proofs.SidebarTags
import DocLinks.Proofs.InsertedNames
import DocLinks.Proofs.ResultSignatures
