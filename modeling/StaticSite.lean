import StaticSite.Content.Decode
import StaticSite.Data.Json
import StaticSite.Main
import StaticSite.Proofs.Markup.Escape
import StaticSite.Proofs.Markup.Reader
import StaticSite.Proofs.Markup.NormalForm
import StaticSite.Proofs.Markup.RoundTrip
import StaticSite.Proofs.Template.Segment
import StaticSite.Proofs.RichText.Event
import StaticSite.Proofs.RichText.Parse
import StaticSite.Proofs.RichText.RoundTrip
import StaticSite.Proofs.Markup.Skeleton
import StaticSite.Proofs.Template.Guarded
import StaticSite.Proofs.Markup.Alike
import StaticSite.Proofs.Template.Shell
import StaticSite.Proofs.Section.Alike
import StaticSite.Proofs.Page.Skeleton
import StaticSite.Proofs.Files.Tree
import StaticSite.Proofs.Files.Disk
import StaticSite.Proofs.Files.Kept
import StaticSite.Proofs.Asset.Fingerprint
import StaticSite.Proofs.Text.Split
import StaticSite.Proofs.Asset.Deploy
import StaticSite.Proofs.Markup.Shown
import StaticSite.Proofs.Section.References
import StaticSite.Proofs.Page.References
import StaticSite.Proofs.Page.Reported
import StaticSite.Proofs.Build.Run
import StaticSite.Proofs.Build.Output
import StaticSite.Proofs.Build.Manifest
import StaticSite.Proofs.Command.Agreement
import StaticSite.Proofs.Command.Sources
import StaticSite.Proofs.Asset.Decode
import StaticSite.Proofs.Asset.Reference
import StaticSite.Proofs.Page.Sitemap
import StaticSite.Proofs.Command.Refusal
import StaticSite.Proofs.Settings.Address
import StaticSite.Proofs.Markup.Tag
import StaticSite.Proofs.Template.Tags
import StaticSite.Proofs.Section.Part
import StaticSite.Proofs.Page.Tags
import StaticSite.Proofs.Page.Address
import StaticSite.Proofs.Page.Link
import StaticSite.Proofs.Page.Deployed
import StaticSite.Proofs.Page.Logged
import StaticSite.Proofs.Markup.Query
import StaticSite.Proofs.RichText.Compose
import StaticSite.Proofs.RichText.Plain
import StaticSite.Proofs.Template.Print
import StaticSite.Proofs.Section.Cards
import StaticSite.Proofs.Page.Filled
import StaticSite.Proofs.Page.Navbar
import StaticSite.Proofs.Page.Preview
import StaticSite.Proofs.Markup.Calls
import StaticSite.Proofs.Markup.Stripped
import StaticSite.Proofs.Section.LinkCards
import StaticSite.Proofs.Page.Emitted
import StaticSite.Proofs.Asset.Name
import StaticSite.Proofs.Page.Absolute
import StaticSite.Proofs.Number.Tenths
import StaticSite.Proofs.Page.Priority
import StaticSite.Proofs.Data.Json
import StaticSite.Proofs.Content.Decode
import StaticSite.Proofs.Content.Defect
import StaticSite.Proofs.Page.Keywords
import StaticSite.Proofs.Markup.Substitution
